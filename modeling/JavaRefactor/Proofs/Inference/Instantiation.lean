import JavaRefactor.Inference
import Mathlib.Data.List.Basic

/-!
# What an instantiation promises

Inference that succeeds has found a type for each of its variables, and every actual type can
be assigned to its parameter once these types are substituted
(`InferenceContext.instantiate_eq_ok`).
-/

namespace JavaRefactor

/-- A sequence of two computations succeeds if both do. -/
theorem Except.bind_eq_ok {ε α β : Type} {x : Except ε α} {f : α → Except ε β} {b : β} :
    x >>= f = .ok b ↔ ∃ a, x = .ok a ∧ f a = .ok b := by
  cases x with
  | error e =>
    constructor
    · exact fun h => absurd h (by simp [bind, Except.bind])
    · rintro ⟨a, h, -⟩
      exact absurd h (by simp)
  | ok a =>
    constructor
    · exact fun h => ⟨a, rfl, h⟩
    · rintro ⟨_, h, hf⟩
      exact Except.ok.inj h ▸ hf

/-- A sequence of two computations fails where one of them does. -/
theorem Except.bind_eq_error {ε α β : Type} {x : Except ε α} {f : α → Except ε β} {e : ε}
    (h : x >>= f = .error e) : x = .error e ∨ ∃ a, x = .ok a ∧ f a = .error e := by
  cases x with
  | error _ => exact .inl (congrArg Except.error (Except.error.inj h))
  | ok a => exact .inr ⟨a, rfl, h⟩

namespace InferenceContext

variable {c : InferenceContext}

/-- Resolution finds types for the variables in their order. -/
theorem map_fst_resolveAll {bounds : List Bound} {found : Substitution}
    (h : c.resolveAll bounds = .ok found) : found.map Prod.fst = c.free := by
  have each (vars : List String) (found : Substitution)
      (h : vars.mapM (fun v => do return (v, ← c.resolve bounds v)) = .ok found) :
      found.map Prod.fst = vars := by
    induction vars generalizing found with
    | nil =>
      obtain rfl : [] = found := Except.ok.inj h
      rfl
    | cons v vars ih =>
      rw [List.mapM_cons] at h
      obtain ⟨entry, hentry, h⟩ := Except.bind_eq_ok.mp h
      obtain ⟨rest, hrest, h⟩ := Except.bind_eq_ok.mp h
      obtain ⟨t, -, hentry⟩ := Except.bind_eq_ok.mp hentry
      obtain rfl : (v, t) = entry := Except.ok.inj hentry
      obtain rfl : (v, t) :: rest = found := Except.ok.inj h
      rw [List.map_cons, ih rest hrest]
  exact each c.free found h

/-- What a successful inference has done. -/
theorem instantiate_eq_ok_iff {params actuals : List JavaType} {ret : JavaType}
    {found : Instantiation} :
    c.instantiate params ret actuals = .ok found ↔
      params.length = actuals.length ∧
      ∃ bounds, c.reduceAll (params.zip actuals) = .ok bounds ∧
        c.resolveAll bounds = .ok found.substitution ∧
        found.params = params.map (JavaType.substitute found.substitution) ∧
        found.ret = ret.substitute found.substitution ∧
        ∀ pair ∈ found.params.zip actuals,
          c.table.isAssignable pair.2 pair.1 c.boxing = true := by
  -- the last check looks for an argument that is refused
  have refused_none (pairs : List (JavaType × JavaType)) :
      (pairs.find? fun pair => !c.table.isAssignable pair.2 pair.1 c.boxing) = none ↔
        ∀ pair ∈ pairs, c.table.isAssignable pair.2 pair.1 c.boxing = true := by
    simp only [List.find?_eq_none, Bool.not_eq_true, Bool.not_eq_false']
  unfold instantiate
  constructor
  · intro h
    split at h
    · cases h
    · rename_i lengths
      obtain ⟨bounds, reduced, h⟩ := Except.bind_eq_ok.mp h
      obtain ⟨solved, resolved, h⟩ := Except.bind_eq_ok.mp h
      dsimp only at h
      split at h
      · cases h
      · rename_i unrefused
        obtain rfl := Except.ok.inj h
        exact ⟨not_not.mp lengths, bounds, reduced, resolved, rfl, rfl,
          (refused_none _).mp unrefused⟩
  · rintro ⟨lengths, bounds, reduced, resolved, hparams, hret, assignable⟩
    obtain ⟨instantiated, result, solved⟩ := found
    dsimp only at resolved hparams hret assignable
    subst hparams hret
    rw [if_neg (not_not.mpr lengths)]
    refine Except.bind_eq_ok.mpr ⟨bounds, reduced, Except.bind_eq_ok.mpr ⟨solved, resolved, ?_⟩⟩
    dsimp only
    split
    · rename_i refused
      cases refused.symm.trans ((refused_none _).mpr assignable)
    · rfl

/-- An instantiation has a type for each variable, and every actual type is assignable to its
instantiated parameter. -/
theorem instantiate_eq_ok {params actuals : List JavaType} {ret : JavaType}
    {found : Instantiation} (h : c.instantiate params ret actuals = .ok found) :
    found.substitution.map Prod.fst = c.free ∧
      ∀ pair ∈ params.zip actuals,
        c.table.isAssignable pair.2 (pair.1.substitute found.substitution) c.boxing = true := by
  obtain ⟨-, bounds, -, resolved, hparams, -, assignable⟩ := instantiate_eq_ok_iff.mp h
  refine ⟨map_fst_resolveAll resolved, fun pair hpair => ?_⟩
  have mem : (pair.1.substitute found.substitution, pair.2) ∈ found.params.zip actuals := by
    rw [hparams, List.zip_map_left]
    exact List.mem_map_of_mem hpair
  exact assignable _ mem

end InferenceContext

end JavaRefactor
