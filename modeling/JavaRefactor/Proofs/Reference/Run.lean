import JavaRefactor.Proofs.Reference.Pending
import Mathlib.Data.List.Forall2

/-!
# Runs of references

References are asked for one after another, each with the pending imports that the ones before left.
`ImportPolicy.Written` says what one of them writes, and `ImportPolicy.referAll_spec` what a
whole run preserves: pending imports are only added, they stay apart, and each class that
is imported was asked for.
-/

namespace JavaRefactor

/-- A reference that is asked for: to a class, or to a static member of one. -/
inductive Reference where
  | toClass (name : String)
  | toMember (owner member : String) (type : JavaType)

/-- The class that is referred to, or whose member is. -/
def Reference.className : Reference → String
  | .toClass name => name
  | .toMember owner _ _ => owner

namespace ImportPolicy

/-- The path that is imported to refer to a class. -/
def imported (policy : ImportPolicy) (name : String) : String :=
  policy.importedPath (Dotted.topLevelClass name) name

/-- Write one reference. -/
def refer (policy : ImportPolicy) (u : CompilationUnit) : Reference → Importing Expr
  | .toClass name => policy.classReference u (Dotted.topLevelClass name) name
  | .toMember owner member type =>
    policy.staticReference u (Dotted.topLevelClass owner) owner member type

/-- Write references one after another. -/
def referAll (policy : ImportPolicy) (u : CompilationUnit) (refs : List Reference) :
    Importing (List Expr) :=
  refs.mapM (policy.refer u)

/-! ### One reference -/

variable {policy : ImportPolicy} {u : CompilationUnit} {p q : PendingImports} {name : String}
  {e : Expr} {r : Reference}

/-- A class is written through its import or by its qualified name, as is decided. -/
inductive ClassWritten (policy : ImportPolicy) (u : CompilationUnit) (p : PendingImports)
    (name : String) : Expr → PendingImports → Prop where
  | through {q : PendingImports} : u.ClassDecision (policy.imported name) p true q →
    ClassWritten policy u p name
      (.qualifiedName (nameThroughImport (policy.imported name) name) (.ofClass name)) q
  | qualified {q : PendingImports} : u.ClassDecision (policy.imported name) p false q →
    ClassWritten policy u p name (.qualifiedName name (.ofClass name)) q

/-- A static member is written alone, or selected from its class. -/
inductive Written (policy : ImportPolicy) (u : CompilationUnit) (p : PendingImports) :
    Reference → Expr → PendingImports → Prop where
  | toClass {name : String} {e : Expr} {q : PendingImports} : ClassWritten policy u p name e q →
    Written policy u p (.toClass name) e q
  | alone {owner member : String} {type : JavaType} {q : PendingImports} :
    policy = .staticMembers → u.StaticDecision (owner ++ "." ++ member) member p true q →
    Written policy u p (.toMember owner member type) (.ident (.ofType type) member none) q
  | selected {owner member : String} {type : JavaType} {e : Expr} {q : PendingImports} :
    ClassWritten policy u p owner e q →
    Written policy u p (.toMember owner member type) (.select (.ofType type) e member none) q

/-- One computation after another starts with the pending imports that the first has left. -/
theorem run_bind {α β : Type} (x : Importing α) (f : α → Importing β) (p : PendingImports) :
    (x >>= f).run p = (f (x.run p).1).run (x.run p).2 := rfl

/-- What is written for a class is one of the ways to write it. -/
theorem classWritten (policy : ImportPolicy) (u : CompilationUnit) (name : String)
    (p : PendingImports) :
    policy.ClassWritten u p name
      ((policy.classReference u (Dotted.topLevelClass name) name).run p).1
      ((policy.classReference u (Dotted.topLevelClass name) name).run p).2 := by
  have decision := u.classDecision (policy.imported name) p
  have run : (policy.classReference u (Dotted.topLevelClass name) name).run p =
      (.qualifiedName
        (if ((u.importClass (policy.imported name)).run p).1 then
          nameThroughImport (policy.imported name) name else name) (.ofClass name),
        ((u.importClass (policy.imported name)).run p).2) := by
    unfold classReference
    rw [run_bind]
    rfl
  rw [run]
  generalize (u.importClass (policy.imported name)).run p = answer at decision ⊢
  obtain ⟨simply, q⟩ := answer
  cases simply with
  | true =>
    simp only [if_true]
    exact .through decision
  | false =>
    simp only [Bool.false_eq_true, if_false]
    exact .qualified decision

/-- What is written for a reference is one of the ways to write it. -/
theorem written (policy : ImportPolicy) (u : CompilationUnit) (r : Reference) (p : PendingImports) :
    policy.Written u p r ((policy.refer u r).run p).1 ((policy.refer u r).run p).2 := by
  cases r with
  | toClass name => exact .toClass (classWritten policy u name p)
  | toMember owner member type =>
    have selected := classWritten policy u owner p
    unfold refer staticReference
    simp only
    split
    · rename_i static
      have decision := u.staticDecision (owner ++ "." ++ member) member p
      rw [run_bind]
      generalize (u.importStatic (owner ++ "." ++ member) member).run p = answer at decision ⊢
      obtain ⟨ok, q⟩ := answer
      cases ok with
      | true => exact .alone static decision
      | false =>
        cases decision
        simp only [Bool.false_eq_true, if_false]
        rw [run_bind]
        exact .selected selected
    · rw [run_bind]
      exact .selected selected

/-- A reference only adds imports. -/
theorem ClassWritten.within (written : policy.ClassWritten u p name e q) : p.Within q := by
  cases written with
  | through decision | qualified decision => exact decision.within

/-- Writing a reference only adds imports. -/
theorem Written.within (written : policy.Written u p r e q) : p.Within q := by
  cases written with
  | toClass written | selected written => exact written.within
  | alone _ decision => exact decision.within

/-- What one reference does to the pending imports. -/
theorem ClassWritten.step (written : policy.ClassWritten u p name e q) (apart : p.Apart u) :
    q.Apart u ∧ ∀ x ∈ q.classes.names, x ∈ p.classes.names ∨ x = policy.imported name := by
  cases written with
  | through decision | qualified decision => exact decision.step apart

/-- Writing a reference keeps the pending imports apart, and imports no class but its own. -/
theorem Written.step (written : policy.Written u p r e q) (apart : p.Apart u)
    (plain : ∀ owner member type, r = .toMember owner member type → '.' ∉ member.toList) :
    q.Apart u ∧ ∀ x ∈ q.classes.names, x ∈ p.classes.names ∨ x = policy.imported r.className := by
  cases written with
  | toClass written | selected written => exact written.step apart
  | alone _ decision =>
    obtain ⟨apart, same⟩ := decision.step (Dotted.simpleName_append (plain _ _ _ rfl)) apart
    exact ⟨apart, fun x hx => .inl (same ▸ hx)⟩

/-! ### A run -/

/-- The first reference is written, and the others with the pending imports that it leaves. -/
theorem referAll_cons (policy : ImportPolicy) (u : CompilationUnit) (r : Reference)
    (refs : List Reference) (p : PendingImports) :
    (policy.referAll u (r :: refs)).run p =
      (((policy.refer u r).run p).1 ::
        ((policy.referAll u refs).run ((policy.refer u r).run p).2).1,
        ((policy.referAll u refs).run ((policy.refer u r).run p).2).2) := by
  rw [referAll, List.mapM_cons]
  rfl

/-- A run keeps what each of its references keeps, and only adds imports; each of its references is
written between the pending imports at the beginning and at the end. -/
theorem referAll_keeps {I : PendingImports → Prop} {refs : List Reference}
    (keeps : ∀ r ∈ refs, ∀ q, I q → I ((policy.refer u r).run q).2) (start : I p) :
    I ((policy.referAll u refs).run p).2 ∧ p.Within ((policy.referAll u refs).run p).2 ∧
      List.Forall₂ (fun r e => ∃ q q', policy.Written u q r e q' ∧ I q ∧
        q'.Within ((policy.referAll u refs).run p).2)
        refs ((policy.referAll u refs).run p).1 := by
  induction refs generalizing p with
  | nil => exact ⟨start, .refl p, .nil⟩
  | cons r refs ih =>
    have first := policy.written u r p
    rw [referAll_cons]
    rw [List.forall_mem_cons] at keeps
    obtain ⟨kept, within, written⟩ := ih keeps.2 (keeps.1 p start)
    exact ⟨kept, first.within.trans within, .cons ⟨p, _, first, start, within⟩ written⟩

/-- A run keeps the pending imports apart and only adds to them, and imports only classes that are
asked for; each of its references is written between the pending imports at the beginning and at the
end. -/
theorem referAll_spec (policy : ImportPolicy) (refs : List Reference) (apart : p.Apart u)
    (plain : ∀ owner member type, .toMember owner member type ∈ refs → '.' ∉ member.toList) :
    ((policy.referAll u refs).run p).2.Apart u ∧ p.Within ((policy.referAll u refs).run p).2 ∧
      (∀ x ∈ ((policy.referAll u refs).run p).2.classes.names, x ∈ p.classes.names ∨
        ∃ r ∈ refs, x = policy.imported r.className) ∧
      List.Forall₂ (fun r e => ∃ q q', policy.Written u q r e q' ∧ q.Apart u ∧
        q'.Within ((policy.referAll u refs).run p).2)
        refs ((policy.referAll u refs).run p).1 := by
  have step : ∀ r ∈ refs, ∀ q : PendingImports,
      (q.Apart u ∧ ∀ x ∈ q.classes.names, x ∈ p.classes.names ∨
        ∃ r ∈ refs, x = policy.imported r.className) →
      ((policy.refer u r).run q).2.Apart u ∧
        ∀ x ∈ ((policy.refer u r).run q).2.classes.names, x ∈ p.classes.names ∨
          ∃ r ∈ refs, x = policy.imported r.className := by
    intro r hr q ⟨apart, origin⟩
    obtain ⟨apart', origin'⟩ := (policy.written u r q).step apart
      fun owner member type here => plain owner member type (here ▸ hr)
    refine ⟨apart', ?_⟩
    intro x hx
    rcases origin' x hx with old | new
    · exact origin x old
    · exact .inr ⟨r, hr, new⟩
  obtain ⟨⟨apart', origin⟩, within, written⟩ :=
    referAll_keeps step ⟨apart, fun x hx => .inl hx⟩
  refine ⟨apart', within, origin, written.imp ?_⟩
  rintro r e ⟨q, q', written, ⟨apart, -⟩, within⟩
  exact ⟨q, q', written, apart, within⟩

end ImportPolicy

end JavaRefactor
