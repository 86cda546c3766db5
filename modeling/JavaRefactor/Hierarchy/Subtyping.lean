import JavaRefactor.Hierarchy.Supertype

/-!
# Subtyping

Subtyping between types of a class table.  In its *checked* form a raw type is not a subtype
of a parameterized one; the *unchecked* form lets it be.  Deciding it may go on for ever in
a table whose declared supertypes grow, so the decision runs on a budget and tells an answer
from an exhausted budget: `subtypeWithin` is `none` when the budget was too small, and a
larger budget keeps every answer (`subtypeWithin_mono`).  The answer itself is the one that
some budget is enough for (`Decision.firstAnswer`).
-/

namespace JavaRefactor

/-! ### Answers within a budget -/

/-- A decision on a budget, which gives no answer where the budget is exhausted. -/
def Decision (α : Type) : Type := Nat → Option α

namespace Decision

variable {α : Type} {decision : Decision α}

/-- The first answer that a decision gives on growing budgets.  Where the decision gives none,
neither does the search. -/
def firstAnswer (decision : Decision α) (budget : Nat) : Option α :=
  match decision budget with
  | some answer => some answer
  | none => decision |>.firstAnswer (budget + 1)
partial_fixpoint

/-- The first answer is one that some budget gives. -/
theorem exists_of_firstAnswer {budget : Nat} {answer : α}
    (h : decision.firstAnswer budget = some answer) : ∃ n, decision n = some answer := by
  refine firstAnswer.partial_correctness decision (fun _ r => ∃ n, decision n = some r) ?_
    budget answer h
  intro search later n r h
  split at h
  · rename_i found
    exact ⟨n, found.trans h⟩
  · exact later (n + 1) r h

/-- The search ends where a larger budget is enough. -/
theorem firstAnswer_isSome {budget n : Nat} (le : budget ≤ n)
    (h : (decision n).isSome = true) : (decision.firstAnswer budget).isSome = true := by
  rw [firstAnswer]
  split
  · rfl
  · rename_i exhausted
    have lt : budget < n := by
      refine Nat.lt_of_le_of_ne le ?_
      rintro rfl
      simp [exhausted] at h
    exact firstAnswer_isSome lt h
termination_by n - budget

end Decision

/-! ### Type arguments -/

/-- Whether a type argument contains another, given the decision of subtyping for bounds. -/
def containsArgument (below : JavaType → JavaType → Option Bool) (formal actual : JavaType) :
    Option Bool :=
  match formal, actual with
  | .wildcard .unbounded _, _ => some true
  | .wildcard _ none, _ => some true
  | .wildcard .upper (some bound), .wildcard .upper (some actual) => below actual bound
  | .wildcard .lower (some bound), .wildcard .lower (some actual) => below bound actual
  | .wildcard _ (some _), .wildcard _ _ => some false
  | .wildcard .upper (some bound), actual => below actual bound
  | .wildcard .lower (some bound), actual => below bound actual
  | formal, actual => some (formal.isSame actual)

/-- Whether a decision holds for all pairs, which are tried in order up to the first that
fails. -/
def allPairs (decision : JavaType → JavaType → Option Bool) :
    List (JavaType × JavaType) → Option Bool
  | [] => some true
  | (a, b) :: rest =>
    match decision a b with
    | some true => allPairs decision rest
    | answer => answer

/-- Whether a view as a class, if there is one, fits the arguments of the class, given the
decision of subtyping for bounds.  A raw view fits only in the unchecked form. -/
def viewFits (below : JavaType → JavaType → Option Bool) (unchecked : Bool)
    (args : List JavaType) : Option JavaType → Option Bool
  | some (.declared _ viewArgs) =>
    if args.isEmpty then some true
    else if viewArgs.isEmpty then some unchecked
    else if viewArgs.length = args.length then
      allPairs (containsArgument below) (args.zip viewArgs)
    else some false
  | _ => some false

namespace ClassTable

/-! ### The decision -/

/-- Whether `sub` is a subtype of `sup`, decided within a number of nested steps. -/
def subtypeWithin (t : ClassTable) (unchecked : Bool) :
    Nat → JavaType → JavaType → Option Bool
  | 0, _, _ => none
  | n + 1, sub, sup =>
    if sub.isSame sup then
      some true
    else if sup.className? = some JavaType.objectName then
      some sub.isReference
    else
      match sub, sup with
      | .primitive .null, sup => some sup.isReference
      | .primitive a, .primitive b => some (a.widensTo b)
      | .primitive _, _ => some false
      | _, .primitive _ => some false
      | sub, .var _ _ (some lower) => subtypeWithin t unchecked n sub lower
      | .var _ upper _, sup => subtypeWithin t unchecked n upper sup
      | .array a, .array b =>
        if a.isPrimitive || b.isPrimitive then some (a == b)
        else subtypeWithin t unchecked n a b
      | .array a, .declared name _ => (t.asSuperWithin (n + 1) (.array a) name).map Option.isSome
      | .declared subName subArgs, .declared name args =>
        (t.asSuperWithin (n + 1) (.declared subName subArgs) name).bind
          (viewFits (subtypeWithin t unchecked n) unchecked args)
      | .wildcard .upper (some bound), sup => subtypeWithin t unchecked n bound sup
      | .wildcard _ _, sup => subtypeWithin t unchecked n .object sup
      | _, _ => some false

/-- The number of nested steps that a decision may take at first.  It leaves room for every
view on the way, and it is far more than any decision needs that ends in practice. -/
def subtypeBudget (t : ClassTable) (sub sup : JavaType) : Nat :=
  Nat.pow (t.weight + 2) (t.weight + sub.size + sup.size + 2)

/-- Subtyping in the given form.  A decision that exhausts its budget goes on with larger ones;
where none is enough the types are no subtypes. -/
def isSubtypeIn (t : ClassTable) (unchecked : Bool) (sub sup : JavaType) : Bool :=
  -- The first budget is tried apart, so that proofs can compute with the decision.
  match t.subtypeWithin unchecked (t.subtypeBudget sub sup) sub sup with
  | some answer => answer
  | none =>
    (Decision.firstAnswer (t.subtypeWithin unchecked · sub sup)
      (t.subtypeBudget sub sup)).getD false

/-- Checked subtyping: a raw type is not a subtype of a parameterized one. -/
def isSubtype (t : ClassTable) (sub sup : JavaType) : Bool := t.isSubtypeIn false sub sup

/-- Subtyping that allows unchecked conversion from raw types. -/
def isSubtypeUnchecked (t : ClassTable) (sub sup : JavaType) : Bool := t.isSubtypeIn true sub sup

/-- Whether a value of one type can be assigned to another, through boxing or unboxing if
that is allowed. -/
def isAssignable (t : ClassTable) (source target : JavaType) (boxing : Bool) : Bool :=
  if t.isSubtypeUnchecked source target then
    true
  else if !boxing then
    false
  else if source.isPrimitive then
    match source.boxed? with
    | some wrapper => t.isSubtype wrapper target
    | none => false
  else if target.isPrimitive then
    match source.unboxed? with
    | some kind => t.isSubtype kind target
    | none => false
  else
    false

end ClassTable

/-! ### Budgets -/

/-- If more questions are answered, more decisions of all pairs are. -/
theorem allPairs_mono {f g : JavaType → JavaType → Option Bool}
    (h : ∀ a b r, f a b = some r → g a b = some r) {ps : List (JavaType × JavaType)} {r : Bool}
    (hf : allPairs f ps = some r) : allPairs g ps = some r := by
  induction ps with
  | nil => exact hf
  | cons p ps ih =>
    obtain ⟨a, b⟩ := p
    unfold allPairs at hf ⊢
    cases hab : f a b with
    | none => simp [hab] at hf
    | some v =>
      rw [hab] at hf
      rw [h a b v hab]
      cases v with
      | true => exact ih hf
      | false => exact hf

/-- If more questions are answered, more is known of what type arguments contain. -/
theorem containsArgument_mono {f g : JavaType → JavaType → Option Bool}
    (h : ∀ a b r, f a b = some r → g a b = some r) {formal actual : JavaType} {r : Bool}
    (hf : containsArgument f formal actual = some r) :
    containsArgument g formal actual = some r := by
  unfold containsArgument at hf ⊢
  split at hf <;> first | exact hf | exact h _ _ _ hf

/-- If more questions are answered, more is known of what views fit. -/
theorem viewFits_mono {f g : JavaType → JavaType → Option Bool}
    (h : ∀ a b r, f a b = some r → g a b = some r) {unchecked : Bool} {args : List JavaType}
    {view : Option JavaType} {r : Bool} (hf : viewFits f unchecked args view = some r) :
    viewFits g unchecked args view = some r := by
  unfold viewFits at hf ⊢
  split at hf
  · by_cases hargs : args.isEmpty
    · simpa [hargs] using hf
    · rename_i viewArgs
      by_cases hview : viewArgs.isEmpty
      · simpa [hargs, hview] using hf
      · by_cases hlength : viewArgs.length = args.length
        · simp only [hargs, hview, hlength, if_true] at hf ⊢
          exact allPairs_mono (fun a b r => containsArgument_mono h) hf
        · simpa [hargs, hview, hlength] using hf
  · exact hf

/-- A larger budget keeps every answer. -/
theorem ClassTable.subtypeWithin_mono (t : ClassTable) (unchecked : Bool) {n m : Nat}
    (hnm : n ≤ m) {sub sup : JavaType} {r : Bool}
    (h : t.subtypeWithin unchecked n sub sup = some r) :
    t.subtypeWithin unchecked m sub sup = some r := by
  induction n generalizing m sub sup r with
  | zero => simp [subtypeWithin] at h
  | succ n ih =>
    obtain ⟨m, rfl⟩ : ∃ k, m = k + 1 := ⟨m - 1, by omega⟩
    have up : ∀ a b r, t.subtypeWithin unchecked n a b = some r →
        t.subtypeWithin unchecked m a b = some r :=
      fun a b r hab => ih (by omega) hab
    have view : ∀ s target v, t.asSuperWithin (n + 1) s target = some v →
        t.asSuperWithin (m + 1) s target = some v :=
      fun _ _ _ hs => t.asSuperWithin_mono hnm hs
    unfold subtypeWithin at h ⊢
    split at h
    · rename_i hs; simpa [hs] using h
    · rename_i hs
      simp only [hs]
      split at h
      · rename_i ho; simpa [ho] using h
      · rename_i ho
        simp only [ho]
        split at h
        all_goals first
          | exact h
          | exact up _ _ _ h
          | skip
        · split at h
          · rename_i hp; simpa [hp] using h
          · rename_i hp; simpa [hp] using up _ _ _ h
        · obtain ⟨v, hv, hfit⟩ := Option.bind_eq_some_iff.1 h
          simpa [view _ _ _ hv] using viewFits_mono up hfit

end JavaRefactor
