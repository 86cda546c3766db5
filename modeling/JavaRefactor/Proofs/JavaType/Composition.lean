import JavaRefactor.Proofs.JavaType.Identity

/-!
# Composition of substitutions

Substituting twice is substituting once, with the types of the first substitution as the second
makes them (`JavaType.substitute_substitute`).  The type must hold no variable that the first
substitution leaves alone, and no quantified signature: below a quantifier the second
substitution does not reach the variables that are quantified there, although the first may have put
such variables in.
-/

namespace JavaRefactor

namespace JavaType

section Composition

variable {P : JavaType → Prop} {σ τ m : Substitution}

mutual

/-- Substituting twice is substituting once, in a type whose variables are all replaced by both. -/
theorem substitute_substitute (parts : ∀ t, P t → ∀ x ∈ t.parts, P x)
    (plain : ∀ vars signature, ¬ P (.generic vars signature))
    (replaced : ∀ name upper lower, P (.var name upper lower) →
      ∃ a b, σ.lookup name = some a ∧ τ.lookup name = some b ∧ b = a.substitute m) :
    (u : JavaType) → P u → (u.substitute σ).substitute m = u.substitute τ
  | .primitive _, _ => rfl
  | .unknown, _ => rfl
  | .declared _ args, h => by
    have each := substituteEach_substituteEach parts plain replaced args (parts _ h)
    rw [substitute, substitute, substitute, each]
  | .array element, h => by
    have inner := substitute_substitute parts plain replaced element
      (parts _ h element List.mem_cons_self)
    rw [substitute, substitute, substitute, inner]
  | .var name upper lower, h => by
    obtain ⟨a, b, first, both, rfl⟩ := replaced name upper lower h
    rw [substitute, first, substitute, both]
  | .wildcard _ bound, h => by
    have inner := substituteOption_substituteOption parts plain replaced bound
      fun x hx => parts _ h x (Option.mem_toList.mpr hx)
    rw [substitute, substitute, substitute, inner]
  | .method params ret, h => by
    obtain ⟨result, each⟩ := List.forall_mem_cons.mp (parts _ h)
    rw [substitute, substitute, substitute, substitute_substitute parts plain replaced ret result,
      substituteEach_substituteEach parts plain replaced params each]
  | .generic vars signature, h => absurd h (plain vars signature)

theorem substituteEach_substituteEach (parts : ∀ t, P t → ∀ x ∈ t.parts, P x)
    (plain : ∀ vars signature, ¬ P (.generic vars signature))
    (replaced : ∀ name upper lower, P (.var name upper lower) →
      ∃ a b, σ.lookup name = some a ∧ τ.lookup name = some b ∧ b = a.substitute m) :
    (us : List JavaType) → (∀ u ∈ us, P u) →
      substituteEach m (substituteEach σ us) = substituteEach τ us
  | [], _ => rfl
  | u :: us, h => by
    obtain ⟨here, others⟩ := List.forall_mem_cons.mp h
    rw [substituteEach, substituteEach, substituteEach,
      substitute_substitute parts plain replaced u here,
      substituteEach_substituteEach parts plain replaced us others]

theorem substituteOption_substituteOption (parts : ∀ t, P t → ∀ x ∈ t.parts, P x)
    (plain : ∀ vars signature, ¬ P (.generic vars signature))
    (replaced : ∀ name upper lower, P (.var name upper lower) →
      ∃ a b, σ.lookup name = some a ∧ τ.lookup name = some b ∧ b = a.substitute m) :
    (x : Option JavaType) → (∀ u ∈ x, P u) →
      substituteOption m (substituteOption σ x) = substituteOption τ x
  | none, _ => rfl
  | some u, h => by
    rw [substituteOption, substituteOption, substituteOption,
      substitute_substitute parts plain replaced u (h u rfl)]

end

end Composition

end JavaType

end JavaRefactor
