import JavaRefactor.Proofs.Expansion.Imports
import JavaRefactor.Proofs.Reference.Meaning

/-!
# Pending imports after an expansion

Whatever pattern is expanded, and whether the expansion succeeds or fails midway, the pending
imports that it leaves are well-formed (`Expanding.KeepsBooks`): no two classes among them have one
simple name, and none has one that the unit imports or declares; it is the same with static members,
where these are named by simple names; and every class that is written through an import has the
simple name of the import in front, for which the path of the import can be put
(`expand_keepsBooks`).
-/

namespace JavaRefactor

/-! ### Names through imports -/

/-- An expression is a dotted name that begins with the simple name of what is imported; with the
path of the import in its place it is the qualified name. -/
def Expr.ReadsThrough (e : Expr) (imported name : String) : Prop :=
  ∃ rest, e.dotted? = some (Dotted.simpleName imported :: rest) ∧
    Dotted.join (imported :: rest) = name

/-- The part of a written reference that names a class. -/
def Reference.classPart? : Reference → Expr → Option Expr
  | .toClass _, e => some e
  | .toMember .., .select _ owner _ _ => some owner
  | .toMember .., _ => none

section Written

variable {policy : ImportPolicy} {u : CompilationUnit} {p q final : PendingImports}
  {name path : String} {e part : Expr} {r : Reference}

/-- A simple name that was taken when a class was asked for is not free for the class later. -/
theorem CompilationUnit.not_mem_of_taken (absent : path ∉ p.classes.names)
    (taken : u.isClassNameTaken p (Dotted.simpleName path) = true) (within : p.Within final)
    (apart : final.ClassesApart u) : path ∉ final.classes.names := by
  intro pending
  obtain ⟨not_imported, not_declared, -⟩ := apart.classes path pending
  rw [isClassNameTaken, not_imported, not_declared] at taken
  have ends : PendingImports.endsIn p.classes (Dotted.simpleName path) = true := by
    simpa using taken
  obtain ⟨other, here, same⟩ := List.any_eq_true.mp ends
  have whole := apart.classNames other (within.classes other here) path pending
    (beq_iff_eq.mp same)
  exact absent (whole ▸ here)

/-- A class whose import is there in the end is written through it. -/
theorem ImportPolicy.ClassWritten.readsThrough (written : policy.ClassWritten u p name e q)
    (within : q.Within final) (apart : final.ClassesApart u)
    (present : u.hasImport (policy.imported name) false = true ∨
      policy.imported name ∈ final.classes.names) :
    e.ReadsThrough (policy.imported name) name := by
  cases written with
  | through decision =>
    obtain ⟨rest, parts, whole⟩ := policy.exists_components name
    exact ⟨rest, by rw [Expr.dotted?_qualifiedName, parts], whole⟩
  | qualified decision =>
    cases decision with
    | taken not_imported absent taken =>
      rcases present with imported | pending
      · rw [not_imported] at imported
        exact absurd imported (by decide)
      · exact absurd pending (CompilationUnit.not_mem_of_taken absent taken within apart)

/-- The class in what is written is read through its import, if it has one in the end. -/
theorem ImportPolicy.Written.readsThrough (written : policy.Written u p r e q)
    (within : q.Within final) (apart : final.ClassesApart u)
    (here : r.classPart? e = some part)
    (present : u.hasImport (policy.imported r.className) false = true ∨
      policy.imported r.className ∈ final.classes.names) :
    part.ReadsThrough (policy.imported r.className) r.className := by
  cases written with
  | toClass written =>
    obtain rfl := Option.some.inj here
    exact written.readsThrough within apart present
  | alone _ _ => exact absurd here (by simp [Reference.classPart?])
  | selected written =>
    obtain rfl := Option.some.inj here
    exact written.readsThrough within apart present

end Written

/-! ### Expansions -/

/-- The pending imports that an expansion leaves are well-formed, whether it succeeds or fails. -/
structure Expanding.KeepsBooks {α : Type} (x : Expanding α) (c : ExpansionContext)
    (refs : List Reference) : Prop where
  /-- The imported classes have different simple names, which the unit neither imports nor
  declares. -/
  classes : (x.run .empty).2.ClassesApart c.unit
  /-- The imported members have different simple names, which the unit does not import, if the
  members that are referred to are named by simple names. -/
  statics : (∀ r ∈ refs, r.Named fun member => '.' ∉ member.toList) →
    (x.run .empty).2.StaticsApart c.unit
  /-- The result is made of what the references are written as, one after the other. -/
  issues : x.Issues c refs
  /-- Where references have left these pending imports, each class among them whose import is there
  is written through it. -/
  through : ∀ issued, (x.run .empty).2 = c.pendingAfter issued .empty →
    List.Forall₂ (fun r e => ∀ part ∈ r.classPart? e,
      (c.unit.hasImport (c.policy.imported r.className) false = true ∨
        c.policy.imported r.className ∈ (x.run .empty).2.classes.names) →
      part.ReadsThrough (c.policy.imported r.className) r.className)
      issued (c.written issued .empty)

/-- Writing a reference keeps the pending classes apart. -/
theorem ExpansionContext.refer_classesApart (c : ExpansionContext) (r : Reference) :
    (c.policy.refer c.unit r).Keeps (·.ClassesApart c.unit) := by
  refine c.keeps_classesApart.refer ?_
  cases r <;> exact True.intro

/-- What issues references leaves well-formed pending imports. -/
theorem Expanding.Issues.keepsBooks {α : Type} {x : Expanding α} {c : ExpansionContext}
    {refs : List Reference} (h : x.Issues c refs) : x.KeepsBooks c refs where
  classes :=
    h.keeps (fun r _ => c.refer_classesApart r) .empty
      (PendingImports.apart_empty c.unit).toClassesApart
  statics simple :=
    h.keeps (fun r hr => c.keeps_staticsApart.refer (simple r hr)) .empty
      (PendingImports.apart_empty c.unit).toStaticsApart
  issues := h
  through := by
    intro issued left
    obtain ⟨apart, -, written⟩ := ImportPolicy.referAll_keeps
      (fun r (_ : r ∈ issued) => c.refer_classesApart r)
      (PendingImports.apart_empty c.unit).toClassesApart
    refine written.imp ?_
    rintro r e ⟨q, q', written, -, within⟩ part here present
    rw [left] at present
    exact written.readsThrough within apart here present

/-- Expanding an expression or some statements leaves well-formed pending imports, whatever the unit
and the bindings are. -/
theorem expand_keepsBooks (c : ExpansionContext) :
    (∀ p : ExprPattern, (p.expand c).KeepsBooks c (p.references c)) ∧
      ∀ ps : List StmtPattern,
        (StmtPattern.expandEach c ps).KeepsBooks c (StmtPattern.referencesOfEach c ps) :=
  ⟨fun p => (p.expand_issues c).keepsBooks,
    fun ps => (StmtPattern.expandEach_issues c ps).keepsBooks⟩

/-- A unit of no package, without imports and classes, into which members are imported. -/
private def importingContext : ExpansionContext :=
  ⟨CompilationUnit.ofDeclarations none [] [] .empty, .rootOnly, {}, .staticMembers⟩

/-- The pattern `hash(new Date())`. -/
private def hashOfDate : ExprPattern :=
  .call (.staticRef "java.util.Objects" "hash" (.method [] (.primitive .int)))
    [.newObject (.classRef "java.util.Date") []]

/-- A class and a static member are imported. -/
theorem expand_keepsBooks_hash :
    (∀ r ∈ hashOfDate.references importingContext, r.Named fun member => '.' ∉ member.toList) ∧
      ((hashOfDate.expand importingContext).run .empty).2.classes.names = ["java.util.Date"] ∧
      ((hashOfDate.expand importingContext).run .empty).2.statics.names
        = ["java.util.Objects.hash"] ∧
      ((hashOfDate.expand importingContext).run .empty).2.StaticsApart importingContext.unit := by
  have simple : ∀ r ∈ hashOfDate.references importingContext,
      r.Named fun member => '.' ∉ member.toList := by
    refine hashOfDate.named_references ?_
    simp [hashOfDate, ExprPattern.staticMembers, ExprPattern.staticMembersOfEach]
  exact ⟨simple, by decide, by decide,
    ((expand_keepsBooks importingContext).1 hashOfDate).statics simple⟩

/-- Members that are named by dotted names may be imported with one simple name. -/
theorem not_expand_staticsApart :
    ¬ ∀ (c : ExpansionContext) (p : ExprPattern),
      ((p.expand c).run .empty).2.StaticsApart c.unit := by
  intro apart
  have both := apart importingContext (.binary .add
    (.staticRef "p.A" "x.b" (.primitive .int)) (.staticRef "q.B" "x.b" (.primitive .int)))
  have same := both.staticNames "p.A.x.b" (by decide) "q.B.x.b" (by decide) (by decide)
  exact absurd same (by decide)

end JavaRefactor
