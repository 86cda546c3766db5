import JavaRefactor.Proofs.Reference.Scope

/-!
# Pending imports along a run of references

A reference is decided against the imports of the unit and those that earlier references need
(`CompilationUnit.classDecision`, `CompilationUnit.staticDecision`).  Whatever is asked for, the
pending imports stay apart from what the unit imports and declares, no two of them have one
simple name, and none is of a package that is visible anyway (`PendingImports.Apart`); a run only
adds to them (`ImportPolicy.referAll_spec`).
-/

namespace JavaRefactor

/-! ### Decisions -/

namespace CompilationUnit

variable {u : CompilationUnit} {path name : String} {p : PendingImports}

/-- What becomes of the simple name of a class: whether it is written, and the pending imports from
then on. -/
inductive ClassDecision (u : CompilationUnit) (path : String) (p : PendingImports) :
    Bool → PendingImports → Prop where
  | imported : u.hasImport path false = true ∨ path ∈ p.classes.names →
    ClassDecision u path p true p
  | taken : u.hasImport path false = false → path ∉ p.classes.names →
    u.isClassNameTaken p (Dotted.simpleName path) = true → ClassDecision u path p false p
  | visible : u.hasImport path false = false → path ∉ p.classes.names →
    u.isClassNameTaken p (Dotted.simpleName path) = false →
    u.seesPackage (Dotted.qualifier path) = true → ClassDecision u path p true p
  | added : u.isClassNameTaken p (Dotted.simpleName path) = false →
    u.seesPackage (Dotted.qualifier path) = false →
    ClassDecision u path p true (p.addClass path)

/-- What becomes of the simple name of a static member. -/
inductive StaticDecision (u : CompilationUnit) (path name : String) (p : PendingImports) :
    Bool → PendingImports → Prop where
  | imported : u.hasImport path true = true ∨ path ∈ p.statics.names →
    StaticDecision u path name p true p
  | taken : StaticDecision u path name p false p
  | added : u.isStaticNameTaken p name = false →
    StaticDecision u path name p true (p.addStatic path)

/-- The simple name of a class is written for an import that is there, or if it is free; a free name
of a hidden package is imported. -/
theorem importClass_run (u : CompilationUnit) (path : String) (p : PendingImports) :
    (u.importClass path).run p =
      if u.hasImport path false || p.classes.contains path then (true, p)
      else if u.isClassNameTaken p (Dotted.simpleName path) then (false, p)
      else if u.seesPackage (Dotted.qualifier path) then (true, p)
      else (true, p.addClass path) := by
  unfold importClass
  simp only [StateT.run_bind, StateT.run_get, pure_bind]
  split
  · rfl
  · split
    · rfl
    · split <;> rfl

/-- The simple name of a static member is written for an import that is there, or if it is free, and
then it is imported. -/
theorem importStatic_run (u : CompilationUnit) (path name : String) (p : PendingImports) :
    (u.importStatic path name).run p =
      if u.hasImport path true || p.statics.contains path then (true, p)
      else if u.isStaticNameTaken p name then (false, p)
      else (true, p.addStatic path) := by
  unfold importStatic
  simp only [StateT.run_bind, StateT.run_get, pure_bind]
  split
  · rfl
  · split <;> rfl

/-- Importing a class is one of the decisions about its simple name. -/
theorem classDecision (u : CompilationUnit) (path : String) (p : PendingImports) :
    u.ClassDecision path p ((u.importClass path).run p).1 ((u.importClass path).run p).2 := by
  rw [importClass_run]
  split
  · rename_i present
    rw [Bool.or_eq_true, NameSet.contains, List.contains_iff_mem] at present
    exact .imported present
  · rename_i absent
    rw [Bool.or_eq_true, NameSet.contains, List.contains_iff_mem, not_or,
      Bool.not_eq_true] at absent
    split
    · rename_i taken
      exact .taken absent.1 absent.2 taken
    · rename_i free
      rw [Bool.not_eq_true] at free
      split
      · rename_i sees
        exact .visible absent.1 absent.2 free sees
      · rename_i hidden
        exact .added free (Bool.not_eq_true _ ▸ hidden)

/-- Importing a static member is one of the decisions about its simple name. -/
theorem staticDecision (u : CompilationUnit) (path name : String) (p : PendingImports) :
    u.StaticDecision path name p ((u.importStatic path name).run p).1
      ((u.importStatic path name).run p).2 := by
  rw [importStatic_run]
  split
  · rename_i present
    rw [Bool.or_eq_true, NameSet.contains, List.contains_iff_mem] at present
    exact .imported present
  · split
    · exact .taken
    · rename_i free
      exact .added (Bool.not_eq_true _ ▸ free)

end CompilationUnit

/-! ### Pending imports and the unit -/

/-- The pending class imports name nothing that the unit imports or declares under that name, no
class of a package that is visible anyway, and no two classes of one simple name. -/
structure PendingImports.ClassesApart (u : CompilationUnit) (p : PendingImports) : Prop where
  classes : ∀ path ∈ p.classes.names, u.classImport? (Dotted.simpleName path) = none ∧
    u.declaresType (Dotted.simpleName path) = false ∧
    u.seesPackage (Dotted.qualifier path) = false
  classNames : ∀ path ∈ p.classes.names, ∀ other ∈ p.classes.names,
    Dotted.simpleName path = Dotted.simpleName other → path = other

/-- The pending static imports name nothing that the unit imports under that name, and no two
members of one simple name. -/
structure PendingImports.StaticsApart (u : CompilationUnit) (p : PendingImports) : Prop where
  statics : ∀ path ∈ p.statics.names, u.staticImport? (Dotted.simpleName path) = none
  staticNames : ∀ path ∈ p.statics.names, ∀ other ∈ p.statics.names,
    Dotted.simpleName path = Dotted.simpleName other → path = other

/-- All pending imports, of classes and of static members, are apart from the unit and from each
other. -/
structure PendingImports.Apart (u : CompilationUnit) (p : PendingImports) : Prop extends
  p.ClassesApart u, p.StaticsApart u

/-- One set of pending imports holds all of another. -/
structure PendingImports.Within (p q : PendingImports) : Prop where
  classes : ∀ path ∈ p.classes.names, path ∈ q.classes.names
  statics : ∀ path ∈ p.statics.names, path ∈ q.statics.names

/-- A name whose simple name is free can be added to names of different simple names. -/
theorem NameSet.eq_of_mem_insert {names : NameSet} {new : String}
    (free : ∀ path ∈ names.names, Dotted.simpleName path ≠ Dotted.simpleName new)
    (distinct : ∀ path ∈ names.names, ∀ other ∈ names.names,
      Dotted.simpleName path = Dotted.simpleName other → path = other) :
    ∀ path ∈ (names.insert new).names, ∀ other ∈ (names.insert new).names,
      Dotted.simpleName path = Dotted.simpleName other → path = other := by
  intro path hpath other hother same
  rcases NameSet.mem_insert.mp hpath with rfl | old
  · rcases NameSet.mem_insert.mp hother with rfl | old'
    · rfl
    · exact absurd same.symm (free other old')
  · rcases NameSet.mem_insert.mp hother with rfl | old'
    · exact absurd same (free path old)
    · exact distinct path old other old' same

variable {u : CompilationUnit} {path name : String} {p q r : PendingImports} {ok : Bool}

namespace PendingImports

/-- Nothing that is not imported can be in the way. -/
theorem apart_empty (u : CompilationUnit) : empty.Apart u where
  classes _ h := absurd h List.not_mem_nil
  classNames _ h := absurd h List.not_mem_nil
  statics _ h := absurd h List.not_mem_nil
  staticNames _ h := absurd h List.not_mem_nil

/-- Pending imports hold themselves. -/
theorem Within.refl (p : PendingImports) : p.Within p := ⟨fun _ h => h, fun _ h => h⟩

/-- What holds all of some pending imports holds all that those hold. -/
theorem Within.trans (h : p.Within q) (h' : q.Within r) : p.Within r :=
  ⟨fun path hp => h'.classes path (h.classes path hp),
    fun path hp => h'.statics path (h.statics path hp)⟩

/-- An import of a class is added to those that are there. -/
theorem within_addClass (p : PendingImports) (path : String) : p.Within (p.addClass path) :=
  ⟨fun _ h => NameSet.mem_insert.mpr (.inr h), fun _ h => h⟩

/-- An import of a static member is added to those that are there. -/
theorem within_addStatic (p : PendingImports) (path : String) : p.Within (p.addStatic path) :=
  ⟨fun _ h => h, fun _ h => NameSet.mem_insert.mpr (.inr h)⟩

/-- Nothing in a set of names ends in a simple name if it is the simple name of none of them. -/
theorem endsIn_eq_false {names : NameSet} {simple : String} :
    endsIn names simple = false ↔ ∀ path ∈ names.names, Dotted.simpleName path ≠ simple := by
  simp [endsIn]

/-- An import of a name that is free keeps the classes apart. -/
theorem ClassesApart.addClass (apart : p.ClassesApart u)
    (free : u.isClassNameTaken p (Dotted.simpleName path) = false)
    (hidden : u.seesPackage (Dotted.qualifier path) = false) :
    (p.addClass path).ClassesApart u := by
  unfold CompilationUnit.isClassNameTaken at free
  simp only [Bool.or_eq_false_iff, Option.isSome_eq_false_iff, Option.isNone_iff_eq_none] at free
  obtain ⟨⟨not_imported, not_declared⟩, not_pending⟩ := free
  rw [endsIn_eq_false] at not_pending
  refine ⟨fun other h => ?_, NameSet.eq_of_mem_insert not_pending apart.classNames⟩
  rcases NameSet.mem_insert.mp h with rfl | h
  · exact ⟨not_imported, not_declared, hidden⟩
  · exact apart.classes other h

/-- So does an import of a static member of a name that is free. -/
theorem StaticsApart.addStatic (apart : p.StaticsApart u)
    (free : u.isStaticNameTaken p (Dotted.simpleName path) = false) :
    (p.addStatic path).StaticsApart u := by
  unfold CompilationUnit.isStaticNameTaken at free
  simp only [Bool.or_eq_false_iff, Option.isSome_eq_false_iff, Option.isNone_iff_eq_none] at free
  obtain ⟨not_imported, not_pending⟩ := free
  rw [endsIn_eq_false] at not_pending
  refine ⟨fun other h => ?_, NameSet.eq_of_mem_insert not_pending apart.staticNames⟩
  rcases NameSet.mem_insert.mp h with rfl | h
  · exact not_imported
  · exact apart.statics other h

/-- An import of a class whose name is free keeps all pending imports apart. -/
theorem Apart.addClass (apart : p.Apart u)
    (free : u.isClassNameTaken p (Dotted.simpleName path) = false)
    (hidden : u.seesPackage (Dotted.qualifier path) = false) : (p.addClass path).Apart u :=
  ⟨apart.toClassesApart.addClass free hidden, ⟨apart.statics, apart.staticNames⟩⟩

/-- So does an import of a static member whose name is free. -/
theorem Apart.addStatic (apart : p.Apart u)
    (free : u.isStaticNameTaken p (Dotted.simpleName path) = false) :
    (p.addStatic path).Apart u :=
  ⟨⟨apart.classes, apart.classNames⟩, apart.toStaticsApart.addStatic free⟩

end PendingImports

namespace CompilationUnit

/-- A decision only adds imports. -/
theorem ClassDecision.within (decision : u.ClassDecision path p ok q) : p.Within q := by
  cases decision with
  | imported _ | taken _ _ _ | visible _ _ _ _ => exact .refl p
  | added _ _ => exact p.within_addClass path

/-- A decision about a static member only adds imports, too. -/
theorem StaticDecision.within (decision : u.StaticDecision path name p ok q) : p.Within q := by
  cases decision with
  | imported _ | taken => exact .refl p
  | added _ => exact p.within_addStatic path

/-- What a decision about a class does to the pending imports. -/
theorem ClassDecision.step (decision : u.ClassDecision path p ok q) (apart : p.Apart u) :
    q.Apart u ∧ ∀ x ∈ q.classes.names, x ∈ p.classes.names ∨ x = path := by
  cases decision with
  | imported _ | taken _ _ _ | visible _ _ _ _ => exact ⟨apart, fun _ h => .inl h⟩
  | added free hidden =>
    exact ⟨apart.addClass free hidden, fun _ h => (NameSet.mem_insert.mp h).symm⟩

/-- What a decision about a static member does to the pending imports. -/
theorem StaticDecision.step (decision : u.StaticDecision path name p ok q)
    (named : Dotted.simpleName path = name) (apart : p.Apart u) :
    q.Apart u ∧ q.classes = p.classes := by
  cases decision with
  | imported _ | taken => exact ⟨apart, rfl⟩
  | added free =>
    have free : u.isStaticNameTaken p (Dotted.simpleName path) = false := named ▸ free
    exact ⟨apart.addStatic free, rfl⟩

/-- A decision about a class keeps the classes apart, and the static members too. -/
theorem ClassDecision.classesApart (decision : u.ClassDecision path p ok q)
    (apart : p.ClassesApart u) : q.ClassesApart u := by
  cases decision with
  | imported _ | taken _ _ _ | visible _ _ _ _ => exact apart
  | added free hidden => exact apart.addClass free hidden

/-- A decision about a class does not touch the static members. -/
theorem ClassDecision.staticsApart (decision : u.ClassDecision path p ok q)
    (apart : p.StaticsApart u) : q.StaticsApart u := by
  cases decision with
  | imported _ | taken _ _ _ | visible _ _ _ _ => exact apart
  | added _ _ => exact ⟨apart.statics, apart.staticNames⟩

/-- So does a decision about a static member, if this is looked up by its simple name. -/
theorem StaticDecision.staticsApart (decision : u.StaticDecision path name p ok q)
    (named : Dotted.simpleName path = name) (apart : p.StaticsApart u) : q.StaticsApart u := by
  cases decision with
  | imported _ | taken => exact apart
  | added free => exact apart.addStatic (named ▸ free)

/-- A decision about a static member does not touch the classes. -/
theorem StaticDecision.classesApart (decision : u.StaticDecision path name p ok q)
    (apart : p.ClassesApart u) : q.ClassesApart u := by
  cases decision with
  | imported _ | taken => exact apart
  | added _ => exact ⟨apart.classes, apart.classNames⟩

end CompilationUnit

end JavaRefactor
