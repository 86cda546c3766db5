import JavaRefactor.Proofs.Reference.Run

/-!
# References mean what was asked for

A reference is written in view of the imports that are there at the time, and read when all
references have added theirs.  What is imported keeps its meaning, as pending imports stay apart.
What is visible without an import, and what is written by its qualified name, keeps its meaning if
nothing that is asked for along the run takes the name: `NoClash` says what has to be ruled
out.  Under it every reference of a run means what was asked for
(`ImportPolicy.referAll_reads`).
-/

namespace JavaRefactor

/-- A class can be named by its simple name without an import: it is of `java.lang`, or of the
package of the unit, be it the unnamed one. -/
def CompilationUnit.Sees (u : CompilationUnit) (path : String) : Prop :=
  Dotted.qualifier path = "java.lang" ∨ path = u.inPackage (Dotted.simpleName path)

instance (u : CompilationUnit) (path : String) : Decidable (u.Sees path) :=
  inferInstanceAs (Decidable (_ ∨ _))

/-- The first component of the name of the class. -/
def Reference.head (r : Reference) : String := (Dotted.components r.className).headD ""

/-- What keeps references from taking each other's names. -/
structure NoClash (u : CompilationUnit) (known : String → Bool) (policy : ImportPolicy)
    (refs : List Reference) : Prop where
  /-- The imports of the unit are not ambiguous. -/
  imports : ∀ i ∈ u.imports, ∀ j ∈ u.imports, i.isStatic = j.isStatic →
    i.simpleName = j.simpleName → i.path = j.path
  /-- The classes that are asked for exist. -/
  exist : ∀ r ∈ refs, known (policy.imported r.className) = true
  /-- A class that is visible without an import shares its simple name with no other class that is
  asked for. -/
  alone : ∀ r ∈ refs, ∀ r' ∈ refs, u.Sees (policy.imported r.className) →
    Dotted.simpleName (policy.imported r'.className) =
      Dotted.simpleName (policy.imported r.className) →
    policy.imported r'.className = policy.imported r.className
  /-- No class of the package of the unit hides a class of `java.lang` that is asked for. -/
  own : ∀ r ∈ refs, Dotted.qualifier (policy.imported r.className) = "java.lang" →
    known (u.inPackage (Dotted.simpleName (policy.imported r.className))) = true →
    u.inPackage (Dotted.simpleName (policy.imported r.className)) = policy.imported r.className
  /-- The package that a qualified name begins with is not the simple name of a class. -/
  heads : ∀ r ∈ refs, '.' ∈ (policy.imported r.className).toList →
    (∀ i ∈ u.imports, i.isStatic = false → i.simpleName ≠ r.head) ∧
    (∀ r' ∈ refs, Dotted.simpleName (policy.imported r'.className) ≠ r.head) ∧
    u.declaresType r.head = false ∧ known (u.inPackage r.head) = false ∧
    known ("java.lang." ++ r.head) = false
  /-- Classes of the unnamed package are asked for within it only, and no import of the unit hides
  them. -/
  unnamed : ∀ r ∈ refs, '.' ∉ (policy.imported r.className).toList → u.package = none ∧
    ∀ i ∈ u.imports, i.isStatic = false → i.simpleName = policy.imported r.className →
      i.path = policy.imported r.className
  /-- A member that is written alone is no member of a class of the unit, unless it is that one. -/
  members : ∀ owner member type, .toMember owner member type ∈ refs → policy = .staticMembers →
    ∀ t ∈ u.types, t.declaresMember member = true → u.qualifiedName t = owner

/-! ### Names through imports -/

/-- The imported class is the class itself, or its name up to a dot. -/
theorem ImportPolicy.imported_eq_or (policy : ImportPolicy) (name : String) :
    policy.imported name = name ∨ ∃ rest, name = policy.imported name ++ "." ++ rest := by
  cases policy with
  | topLevel | staticMembers => exact Dotted.topLevelClass_eq_or name
  | direct => exact .inl rfl

/-- A class whose import has a dot in its name has one in its own. -/
theorem ImportPolicy.mem_of_mem_imported (policy : ImportPolicy) {name : String}
    (dotted : '.' ∈ (policy.imported name).toList) : '.' ∈ name.toList := by
  rcases policy.imported_eq_or name with same | ⟨rest, nested⟩
  · exact same ▸ dotted
  · rw [nested]
    simp

/-- Through its import, a class is named by the simple name of what is imported and what is nested
in it. -/
theorem nameThroughImport_append (imported nested : String) :
    nameThroughImport imported (imported ++ nested) = Dotted.simpleName imported ++ nested := by
  have cut : imported.toList.isPrefixOf? (imported ++ nested).toList = some nested.toList := by
    rw [String.toList_append]
    exact List.isPrefixOf?_eq_some_iff_append_eq.mpr rfl
  unfold nameThroughImport
  rw [cut]
  simp

/-- A name through an import begins with the simple name of what is imported, and goes on as the
qualified name does. -/
theorem ImportPolicy.exists_components (policy : ImportPolicy) (name : String) :
    ∃ rest, Dotted.components (nameThroughImport (policy.imported name) name) =
        Dotted.simpleName (policy.imported name) :: rest ∧
      Dotted.join (policy.imported name :: rest) = name := by
  rcases policy.imported_eq_or name with same | ⟨rest, nested⟩
  · have through := nameThroughImport_append name ""
    rw [String.append_empty, String.append_empty] at through
    rw [same, through, Dotted.components_of_not_mem (Dotted.not_mem_simpleName name)]
    exact ⟨[], rfl, Dotted.join_singleton name⟩
  · have through := nameThroughImport_append (policy.imported name) ("." ++ rest)
    rw [← String.append_assoc, ← nested, ← String.append_assoc] at through
    refine ⟨Dotted.components rest, ?_, ?_⟩
    · rw [through, Dotted.components_append,
        Dotted.components_of_not_mem (Dotted.not_mem_simpleName _)]
      rfl
    · rw [Dotted.join_cons (Dotted.components_ne_nil rest), Dotted.join_components, ← nested]

/-- A class without a package is written the same through its import and by its name. -/
theorem ImportPolicy.nameThroughImport_of_not_mem {policy : ImportPolicy} {name : String}
    (plain : '.' ∉ (policy.imported name).toList) :
    nameThroughImport (policy.imported name) name = name := by
  obtain ⟨rest, parts, whole⟩ := policy.exists_components name
  rw [Dotted.simpleName_of_not_mem plain] at parts
  rw [← Dotted.join_components (nameThroughImport (policy.imported name) name), parts, whole]

/-! ### Levels -/

namespace Scope

variable {s : Scope} {simple path : String}

/-- A simple name that nothing provides names no class. -/
theorem classesNamed_eq_nil (imports : s.importsNamed false simple = [])
    (declared : s.unit.declaresType simple = false)
    (own : s.known (s.unit.inPackage simple) = false)
    (language : s.known ("java.lang." ++ simple) = false) : s.classesNamed simple = [] := by
  simp [classesNamed, imports, declared, own, language, firstLevel]

/-- A simple name that no import has names the class of the unit or of its package. -/
theorem classesNamed_eq_own (imports : s.importsNamed false simple = [])
    (own : s.unit.declaresType simple = true ∨ s.known (s.unit.inPackage simple) = true) :
    s.classesNamed simple = [s.unit.inPackage simple] := by
  simp [classesNamed, imports, own, firstLevel]

/-- A simple name that is only known in `java.lang` names the class there. -/
theorem classesNamed_eq_language (imports : s.importsNamed false simple = [])
    (declared : s.unit.declaresType simple = false)
    (own : s.known (s.unit.inPackage simple) = false)
    (language : s.known ("java.lang." ++ simple) = true) :
    s.classesNamed simple = ["java.lang." ++ simple] := by
  simp [classesNamed, imports, declared, own, language, firstLevel]

end Scope

/-- No class is imported under a simple name if no import of a class ends in it. -/
theorem CompilationUnit.classImport?_eq_none {u : CompilationUnit} {simple : String} :
    u.classImport? simple = none ↔ ∀ i ∈ u.imports, i.isStatic = false → i.simpleName ≠ simple := by
  simp [classImport?, List.find?_eq_none]

/-- No member is imported under a simple name if no static import ends in it. -/
theorem CompilationUnit.staticImport?_eq_none {u : CompilationUnit} {simple : String} :
    u.staticImport? simple = none ↔ ∀ i ∈ u.imports, i.isStatic = true → i.simpleName ≠ simple := by
  simp [staticImport?, List.find?_eq_none]

/-- A unit has an import of a path if one of its imports has that path. -/
theorem CompilationUnit.hasImport_iff {u : CompilationUnit} {path : String} {isStatic : Bool} :
    u.hasImport path isStatic = true ↔
      ∃ i ∈ u.imports, i.isStatic = isStatic ∧ i.path = path := by
  simp [hasImport]

/-! ### Reading in the end -/

variable {u : CompilationUnit} {known : String → Bool} {policy : ImportPolicy}
  {refs : List Reference} {p q : PendingImports}

/-- A pending import names nothing that the unit imports. -/
theorem PendingImports.Apart.simpleName_ne (apart : p.Apart u) {isStatic : Bool} {path : String}
    (pending : path ∈ (if isStatic then p.statics else p.classes).names) {i : Import}
    (hi : i ∈ u.imports) (kind : i.isStatic = isStatic) :
    i.simpleName ≠ Dotted.simpleName path := by
  cases isStatic with
  | true => exact CompilationUnit.staticImport?_eq_none.mp (apart.statics path pending) i hi kind
  | false =>
    exact CompilationUnit.classImport?_eq_none.mp (apart.classes path pending).1 i hi kind

/-- No simple name is imported twice, with different paths. -/
theorem eq_of_mem_importsNamed (clear : NoClash u known policy refs) (apart : p.Apart u)
    {isStatic : Bool} {simple path path' : String}
    (h : path ∈ Scope.importsNamed ⟨u, p, known⟩ isStatic simple)
    (h' : path' ∈ Scope.importsNamed ⟨u, p, known⟩ isStatic simple) : path = path' := by
  rw [Scope.mem_importsNamed] at h h'
  obtain ⟨present, named⟩ := h
  obtain ⟨present', named'⟩ := h'
  rcases present with ⟨i, hi, kind, rfl⟩ | pending
  · rcases present' with ⟨j, hj, kind', rfl⟩ | pending'
    · exact clear.imports i hi j hj (kind.trans kind'.symm) (named.trans named'.symm)
    · exact absurd (named.trans named'.symm) (apart.simpleName_ne pending' hi kind)
  · rcases present' with ⟨j, hj, kind', rfl⟩ | pending'
    · exact absurd (named'.trans named.symm) (apart.simpleName_ne pending hj kind')
    · cases isStatic with
      | true => exact apart.staticNames path pending path' pending' (named.trans named'.symm)
      | false => exact apart.classNames path pending path' pending' (named.trans named'.symm)

/-- What the decision takes for visible is visible. -/
theorem NoClash.sees_of_seesPackage (clear : NoClash u known policy refs) {r : Reference}
    (hr : r ∈ refs)
    (sees : u.seesPackage (Dotted.qualifier (policy.imported r.className)) = true) :
    u.Sees (policy.imported r.className) := by
  unfold CompilationUnit.seesPackage at sees
  rw [Bool.or_eq_true, beq_iff_eq, beq_iff_eq] at sees
  rcases sees with language | package
  · exact .inl language
  · by_cases dotted : '.' ∈ (policy.imported r.className).toList
    · refine .inr ?_
      rw [CompilationUnit.inPackage, package]
      exact Dotted.eq_qualifier_append dotted
    · rw [(clear.unnamed r hr dotted).1] at package
      exact absurd package (by simp)

/-- A class that is imported is the only one that its simple name means. -/
theorem agreed?_of_mem_importsNamed (clear : NoClash u known policy refs) (apart : p.Apart u)
    {path : String}
    (here : path ∈ Scope.importsNamed ⟨u, p, known⟩ false (Dotted.simpleName path)) :
    Scope.agreed? (Scope.classesNamed ⟨u, p, known⟩ (Dotted.simpleName path)) = some path :=
  Scope.agreed?_classesNamed_of_import here
    fun _ h => eq_of_mem_importsNamed clear apart h here

section Visible

variable {r : Reference} (clear : NoClash u known policy refs) (hr : r ∈ refs)
  (apart : p.Apart u)
  (origin : ∀ x ∈ p.classes.names, ∃ r ∈ refs, x = policy.imported r.className)
include clear hr origin

/-- Nothing of the name of a visible class is imported if the unit does not import it and the class
is not pending itself. -/
theorem importsNamed_eq_nil_of_sees (sees : u.Sees (policy.imported r.className))
    (unit : ∀ i ∈ u.imports, i.isStatic = false →
      i.simpleName ≠ Dotted.simpleName (policy.imported r.className))
    (absent : policy.imported r.className ∉ p.classes.names) :
    Scope.importsNamed ⟨u, p, known⟩ false
      (Dotted.simpleName (policy.imported r.className)) = [] := by
  refine Scope.importsNamed_eq_nil unit fun path hpath named => ?_
  obtain ⟨r', hr', rfl⟩ := origin path hpath
  have same := clear.alone r hr r' hr' sees named
  exact absent (same ▸ hpath)

include apart

/-- A class that the decision takes for visible, under a name that is free, is the only one that the
name means. -/
theorem agreed?_of_seesPackage {start : PendingImports}
    (free : u.isClassNameTaken start (Dotted.simpleName (policy.imported r.className)) = false)
    (sees : u.seesPackage (Dotted.qualifier (policy.imported r.className)) = true) :
    Scope.agreed? (Scope.classesNamed ⟨u, p, known⟩
      (Dotted.simpleName (policy.imported r.className))) = some (policy.imported r.className) := by
  unfold CompilationUnit.isClassNameTaken at free
  simp only [Bool.or_eq_false_iff, Option.isSome_eq_false_iff, Option.isNone_iff_eq_none] at free
  obtain ⟨⟨unit, declared⟩, -⟩ := free
  have absent : policy.imported r.className ∉ p.classes.names := by
    intro pending
    have unseen := (apart.classes _ pending).2.2
    exact absurd (sees.symm.trans unseen) (by simp)
  have sees := clear.sees_of_seesPackage hr sees
  have imports := importsNamed_eq_nil_of_sees clear hr origin sees
    (CompilationUnit.classImport?_eq_none.mp unit) absent
  have exist := clear.exist r hr
  cases own : known (u.inPackage (Dotted.simpleName (policy.imported r.className))) with
  | true =>
    rw [Scope.classesNamed_eq_own imports (.inr own)]
    rcases sees with language | here
    · exact congrArg some (clear.own r hr language own)
    · exact congrArg some here.symm
  | false =>
    rcases sees with language | here
    · have name : "java.lang." ++ Dotted.simpleName (policy.imported r.className) =
          policy.imported r.className := by
        rw [show "java.lang." = "java.lang" ++ "." from rfl]
        exact (Dotted.eq_append_of_qualifier (by simp) language).symm
      rw [Scope.classesNamed_eq_language imports declared own ((congrArg known name).trans exist)]
      exact congrArg some name
    · rw [← here, exist] at own
      exact absurd own (by simp)

/-- A class of the unnamed package that is not imported is what its name means, even where the
decision finds the name taken: the unit declares the class itself. -/
theorem agreed?_of_taken (plain : '.' ∉ (policy.imported r.className).toList)
    (within : q.Within p) (absent : u.hasImport (policy.imported r.className) false = false)
    (notPending : policy.imported r.className ∉ q.classes.names)
    (taken : u.isClassNameTaken q (Dotted.simpleName (policy.imported r.className)) = true) :
    Scope.agreed? (Scope.classesNamed ⟨u, p, known⟩
      (Dotted.simpleName (policy.imported r.className))) = some (policy.imported r.className) := by
  obtain ⟨unnamed, unit⟩ := clear.unnamed r hr plain
  have simple := Dotted.simpleName_of_not_mem plain
  have here : policy.imported r.className =
      u.inPackage (Dotted.simpleName (policy.imported r.className)) := by
    rw [CompilationUnit.inPackage, unnamed, simple]
  have unit : ∀ i ∈ u.imports, i.isStatic = false →
      i.simpleName ≠ Dotted.simpleName (policy.imported r.className) := by
    intro i hi kind named
    have path := unit i hi kind (named.trans simple)
    have present := CompilationUnit.hasImport_iff.mpr ⟨i, hi, kind, path⟩
    exact absurd (absent.symm.trans present) (by simp)
  unfold CompilationUnit.isClassNameTaken at taken
  rw [CompilationUnit.classImport?_eq_none.mpr unit, Option.isSome_none, Bool.false_or,
    Bool.or_eq_true] at taken
  rcases taken with declared | pending
  · have absent : policy.imported r.className ∉ p.classes.names := by
      intro pending
      have undeclared := (apart.classes _ pending).2.1
      exact absurd (declared.symm.trans undeclared) (by simp)
    have imports := importsNamed_eq_nil_of_sees clear hr origin (.inr here) unit absent
    rw [Scope.classesNamed_eq_own imports (.inl declared)]
    exact congrArg some here.symm
  · -- a pending class of that name was asked for, and is the class itself
    obtain ⟨path, hpath, named⟩ : ∃ path ∈ q.classes.names,
        Dotted.simpleName path = Dotted.simpleName (policy.imported r.className) := by
      simpa [PendingImports.endsIn] using pending
    obtain ⟨r', hr', rfl⟩ := origin path (within.classes path hpath)
    have same := clear.alone r hr r' hr' (.inr here) named
    exact absurd (same ▸ hpath) notPending

/-- A class that is written by its simple name is the only one that the name means in the end. -/
theorem agreed?_of_decision {start : PendingImports} {ok : Bool}
    (decision : u.ClassDecision (policy.imported r.className) start ok q) (within : q.Within p)
    (written : ok = true ∨ '.' ∉ (policy.imported r.className).toList) :
    Scope.agreed? (Scope.classesNamed ⟨u, p, known⟩
      (Dotted.simpleName (policy.imported r.className))) = some (policy.imported r.className) := by
  cases decision with
  | imported present =>
    refine agreed?_of_mem_importsNamed clear apart (Scope.mem_importsNamed.mpr ⟨?_, rfl⟩)
    rcases present with present | pending
    · exact .inl (CompilationUnit.hasImport_iff.mp present)
    · exact .inr (within.classes _ pending)
  | added free hidden =>
    refine agreed?_of_mem_importsNamed clear apart
      (Scope.mem_importsNamed.mpr ⟨.inr (within.classes _ ?_), rfl⟩)
    exact NameSet.mem_insert.mpr (.inl rfl)
  | visible absent notPending free sees =>
    exact agreed?_of_seesPackage clear hr apart origin free sees
  | taken absent notPending taken =>
    have plain := written.resolve_left (by simp)
    exact agreed?_of_taken clear hr apart origin plain within absent notPending taken

omit apart

/-- The qualified name of a class of a package is read as such: its head names no class. -/
theorem readClass_components (dotted : '.' ∈ (policy.imported r.className).toList) :
    Scope.readClass ⟨u, p, known⟩ (Dotted.components r.className) = some r.className := by
  cases parts : Dotted.components r.className with
  | nil => exact absurd parts (Dotted.components_ne_nil _)
  | cons head rest =>
    have first : r.head = head := by rw [Reference.head, parts, List.headD_cons]
    obtain ⟨unit, asked, declared, own, language⟩ := first ▸ clear.heads r hr dotted
    have imports : Scope.importsNamed ⟨u, p, known⟩ false head = [] := by
      refine Scope.importsNamed_eq_nil unit fun path hpath named => ?_
      obtain ⟨r', hr', rfl⟩ := origin path hpath
      exact asked r' hr' named
    have more : rest ≠ [] := by
      rintro rfl
      exact Dotted.not_mem_of_components parts (policy.mem_of_mem_imported dotted)
    rw [Scope.readClass, Scope.classesNamed_eq_nil imports declared own language]
    simp only [more, if_false]
    rw [← parts, Dotted.join_components]

end Visible

/-- A reference to a class means the class in the end. -/
theorem readClass_of_written (clear : NoClash u known policy refs) {r : Reference} (hr : r ∈ refs)
    {start : PendingImports} {e : Expr} (apart : p.Apart u)
    (origin : ∀ x ∈ p.classes.names, ∃ r ∈ refs, x = policy.imported r.className)
    (written : policy.ClassWritten u start r.className e q) (within : q.Within p) :
    e.dotted?.bind (Scope.readClass ⟨u, p, known⟩) = some r.className := by
  have through {ok : Bool} (decision : u.ClassDecision (policy.imported r.className) start ok q)
      (simply : ok = true ∨ '.' ∉ (policy.imported r.className).toList) :
      Scope.readClass ⟨u, p, known⟩
        (Dotted.components (nameThroughImport (policy.imported r.className) r.className)) =
          some r.className := by
    obtain ⟨rest, parts, whole⟩ := policy.exists_components r.className
    have agreed := agreed?_of_decision clear hr apart origin decision within simply
    rw [parts, Scope.readClass_of_agreed agreed, whole]
  cases written with
  | through decision =>
    rw [Expr.dotted?_qualifiedName]
    exact through decision (.inl rfl)
  | qualified decision =>
    rw [Expr.dotted?_qualifiedName]
    by_cases dotted : '.' ∈ (policy.imported r.className).toList
    · exact readClass_components clear hr origin dotted
    · have same := ImportPolicy.nameThroughImport_of_not_mem dotted
      have read := through decision (.inr dotted)
      rw [same] at read
      exact read

/-- A static member that is written alone is the only one that the name means in the end. -/
theorem agreed?_membersNamed (clear : NoClash u known policy refs) {owner member : String}
    {type : JavaType} (hr : .toMember owner member type ∈ refs) (plain : '.' ∉ member.toList)
    (static : policy = .staticMembers) {start : PendingImports} (apart : p.Apart u)
    (decision : u.StaticDecision (owner ++ "." ++ member) member start true q)
    (within : q.Within p) :
    Scope.agreed? (Scope.membersNamed ⟨u, p, known⟩ member) = some (owner ++ "." ++ member) := by
  have here : owner ++ "." ++ member ∈ Scope.importsNamed ⟨u, p, known⟩ true member := by
    refine Scope.mem_importsNamed.mpr ⟨?_, Dotted.simpleName_append plain⟩
    cases decision with
    | imported present =>
      exact present.imp CompilationUnit.hasImport_iff.mp (within.statics _)
    | added _ => exact .inr (within.statics _ (NameSet.mem_insert.mpr (.inl rfl)))
  have own : ∀ path ∈ (u.types.filter fun t => t.declaresMember member).map fun t =>
      u.qualifiedName t ++ "." ++ member, path = owner ++ "." ++ member := by
    intro path hpath
    obtain ⟨t, ht, rfl⟩ := List.mem_map.mp hpath
    obtain ⟨ht, declares⟩ := List.mem_filter.mp ht
    rw [clear.members owner member type hr static t ht declares]
  have imports : ∀ path ∈ Scope.importsNamed ⟨u, p, known⟩ true member,
      path = owner ++ "." ++ member :=
    fun path hpath => eq_of_mem_importsNamed clear apart hpath here
  unfold Scope.membersNamed
  cases level : (u.types.filter fun t => t.declaresMember member).map fun t =>
      u.qualifiedName t ++ "." ++ member with
  | cons path paths =>
    rw [level] at own
    exact Scope.agreed?_of_forall (own path List.mem_cons_self ▸ List.mem_cons_self) own
  | nil =>
    cases static_imports : Scope.importsNamed ⟨u, p, known⟩ true member with
    | nil => exact absurd (static_imports ▸ here) List.not_mem_nil
    | cons path paths =>
      rw [static_imports] at imports here
      exact Scope.agreed?_of_forall here imports

/-! ### Runs -/

/-- What is written for a reference means in a scope what was asked for. -/
def Scope.Reads (s : Scope) (e : Expr) : Reference → Prop
  | .toClass name => e.dotted?.bind s.readClass = some name
  | .toMember owner member _ => s.readMember e = some (owner ++ "." ++ member)

/-- After a run of references that do not clash, each of them means what was asked for, in the unit
with all pending imports.  No pending import, clash or not, is of `java.lang` or of the named
package of the unit. -/
theorem ImportPolicy.referAll_reads (u : CompilationUnit) (known : String → Bool)
    (policy : ImportPolicy) (refs : List Reference)
    (plain : ∀ owner member type, .toMember owner member type ∈ refs → '.' ∉ member.toList) :
    (NoClash u known policy refs →
      List.Forall₂ (fun r e =>
        Scope.Reads ⟨u, ((policy.referAll u refs).run .empty).2, known⟩ e r)
        refs ((policy.referAll u refs).run .empty).1) ∧
    ∀ path ∈ ((policy.referAll u refs).run .empty).2.classes.names,
      u.seesPackage (Dotted.qualifier path) = false := by
  obtain ⟨apart, -, origin, written⟩ :=
    policy.referAll_spec refs (PendingImports.apart_empty u) plain
  refine ⟨fun clear => ?_, fun path hpath => (apart.classes path hpath).2.2⟩
  have origin : ∀ x ∈ ((policy.referAll u refs).run .empty).2.classes.names,
      ∃ r ∈ refs, x = policy.imported r.className :=
    fun x hx => (origin x hx).resolve_left List.not_mem_nil
  rw [List.forall₂_iff_get] at written ⊢
  refine ⟨written.1, fun i hi hi' => ?_⟩
  obtain ⟨start, q, written, -, within⟩ := written.2 i hi hi'
  have asked := refs.get_mem ⟨i, hi⟩
  generalize refs.get ⟨i, hi⟩ = r at written asked ⊢
  generalize List.get _ _ = e at written ⊢
  cases written with
  | toClass written => exact readClass_of_written clear asked apart origin written within
  | @alone owner member type q static decision =>
    exact agreed?_membersNamed clear asked (plain owner member type asked) static apart decision
      within
  | @selected owner member type e q written =>
    have read := readClass_of_written clear asked apart origin written within
    exact congrArg (Option.map fun c => c ++ "." ++ member) read

/-- A class that is visible without an import loses its simple name to a later import: `alone`
cannot be left out. -/
example :
    ((ImportPolicy.topLevel.referAll (.ofDeclarations (some "p") [] [] .empty)
      [.toClass "java.lang.Integer", .toClass "q.Integer"]).run .empty).1.map Expr.dotted? =
        [some ["Integer"], some ["Integer"]] := by
  decide +kernel

/-- A unit that imports a class. -/
def importingMap : CompilationUnit :=
  .ofDeclarations (some "p") [⟨"java.util.Map", false, .synthetic⟩] [] .empty

/-- References to classes that are imported, visible, and of one simple name, and to a member. -/
def mixedReferences : List Reference :=
  [.toClass "java.lang.Integer", .toClass "java.util.Map.Entry", .toClass "java.util.List",
    .toClass "java.awt.List", .toMember "java.lang.Math" "max" .unknown]

/-- The classes that are referred to. -/
def mixedClasses (name : String) : Bool :=
  ["java.lang.Integer", "java.util.Map", "java.util.List", "java.awt.List",
    "java.lang.Math"].contains name

/-- The references of the example do not take each other's names. -/
theorem noClash_mixedReferences :
    NoClash importingMap mixedClasses .staticMembers mixedReferences where
  imports := by decide +kernel
  exist := by decide +kernel
  alone := by decide +kernel
  own := by decide +kernel
  heads := by decide +kernel
  unnamed := by decide +kernel
  members _ _ _ _ _ t ht := absurd ht List.not_mem_nil

/-- References that do not clash mean what was asked for; the second class of one simple name is
written by its qualified name. -/
theorem ImportPolicy.referAll_reads_mixed :
    List.Forall₂ (fun r e =>
      Scope.Reads ⟨importingMap,
        ((ImportPolicy.staticMembers.referAll importingMap mixedReferences).run .empty).2,
        mixedClasses⟩ e r)
      mixedReferences
      ((ImportPolicy.staticMembers.referAll importingMap mixedReferences).run .empty).1 := by
  refine (ImportPolicy.referAll_reads importingMap mixedClasses .staticMembers mixedReferences
    fun owner member type asked => ?_).1 noClash_mixedReferences
  obtain ⟨-, rfl, -⟩ : owner = "java.lang.Math" ∧ member = "max" ∧ type = .unknown := by
    simpa [mixedReferences] using asked
  decide

end JavaRefactor
