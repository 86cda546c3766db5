import JavaRefactor.Proofs.Inference.Instantiation
import JavaRefactor.Proofs.Inference.Steps
import JavaRefactor.Proofs.JavaType.Ground

/-!
# Boxing and inference

Whether boxing is allowed is asked in two places only: where a whole argument is compared with
its parameter, and where the instantiated parameters are checked at the end.  What reduction
does with parts of an argument, and how it finds types for bounds, is the same with boxing and
without (`InferenceContext.reduce_withBoxing`).  In the two places boxing only adds answers:
without it a primitive argument of a parameter that mentions free variables is refused, so an
inference that succeeds without boxing has never met one.  It runs in the same way once boxing is
allowed, and finds the same types (`InferenceContext.instantiate_of_withBoxing_false`).
-/

namespace JavaRefactor

/-- What can be assigned without boxing can be assigned with it. -/
theorem ClassTable.isAssignable_of_false {t : ClassTable} {source target : JavaType}
    (h : t.isAssignable source target false = true) (boxing : Bool) :
    t.isAssignable source target boxing = true := by
  unfold isAssignable at h ⊢
  split
  · rfl
  · rename_i apart
    rw [if_neg apart] at h
    exact absurd h Bool.false_ne_true

namespace InferenceContext

/-- The same inference with boxing allowed or forbidden. -/
def withBoxing (c : InferenceContext) (allowed : Bool) : InferenceContext :=
  { c with boxing := allowed }

variable {c : InferenceContext} {allowed : Bool} {conversion : Conversion} {f a : JavaType}

/-! ### Equality -/

/-- Equality settles some pairs of types at once, and goes to the forms of the others. -/
theorem reduceEqual_step (c : InferenceContext) (f a : JavaType) :
    c.reduceEqual f a =
      if !f.mentions c.free then
        if a.isSame f then .ok [] else .error (.incompatible f a)
      else if a.isPrimitive then .error (.incompatible f a)
      else c.equateForms f a := by
  unfold reduceEqual
  rfl

/-- Where one list of types ends, nothing is left to equate. -/
theorem reduceEqualEach_nil {fs as : List JavaType} (h : fs = [] ∨ as = []) :
    c.reduceEqualEach fs as = .ok [] := by
  unfold reduceEqualEach
  rcases h with rfl | rfl
  · rfl
  · split <;> first | rfl | contradiction

/-- Lists of type arguments are equated alike if their members are. -/
theorem reduceEqualEach_congr {d : InferenceContext} {fs : List JavaType}
    (each : ∀ f ∈ fs, ∀ a, d.equateArguments f a = c.equateArguments f a) (as : List JavaType) :
    d.reduceEqualEach fs as = c.reduceEqualEach fs as := by
  induction fs generalizing as with
  | nil => rw [reduceEqualEach_nil (.inl rfl), reduceEqualEach_nil (.inl rfl)]
  | cons f fs ih =>
    obtain ⟨here, others⟩ := List.forall_mem_cons.mp each
    cases as with
    | nil => rw [reduceEqualEach_nil (.inr rfl), reduceEqualEach_nil (.inr rfl)]
    | cons a as => rw [reduceEqualEach_cons, reduceEqualEach_cons, here, ih others]

/-- Type arguments are equated alike if types of at most their size are. -/
theorem equateArguments_congr {d : InferenceContext}
    (parts : ∀ g : JavaType, g.size ≤ f.size → ∀ a, d.reduceEqual g a = c.reduceEqual g a)
    (a : JavaType) : d.equateArguments f a = c.equateArguments f a := by
  unfold equateArguments
  split
  · rw [parts _ (Nat.le_of_lt JavaType.size_lt_wildcard)]
  · rfl
  · rfl
  · exact parts _ (Nat.le_refl _) a

/-- Types are equated without boxing, allowed or not. -/
theorem reduceEqual_withBoxing (f a : JavaType) :
    (c.withBoxing allowed).reduceEqual f a = c.reduceEqual f a := by
  have forms : (c.withBoxing allowed).equateForms f a = c.equateForms f a := by
    cases f with
    | declared name args =>
      have each (f : JavaType) (hf : f ∈ args) (a : JavaType) :
          (c.withBoxing allowed).equateArguments f a = c.equateArguments f a :=
        equateArguments_congr (fun g _ a => reduceEqual_withBoxing g a) a
      cases a with
      | declared other others =>
        exact if_congr Iff.rfl (reduceEqualEach_congr each others) rfl
      | _ => rfl
    | array element =>
      cases a with
      | array other => exact reduceEqual_withBoxing element other
      | _ => rfl
    | _ => cases a <;> rfl
  rw [reduceEqual_step, reduceEqual_step, forms]
  rfl
termination_by f.size
decreasing_by
  · subst_vars
    exact Nat.lt_of_le_of_lt ‹_› (JavaType.size_lt_of_mem hf)
  · subst_vars
    exact Nat.lt_add_of_pos_left Nat.one_pos

/-- Boxing plays no part in what is above a type. -/
theorem reduceAbove_withBoxing :
    (c.withBoxing allowed).reduceAbove f a = c.reduceAbove f a := by
  unfold reduceAbove
  simp only [reduceEqual_withBoxing]
  rfl

/-! ### The other relations -/

/-- The other relations settle some pairs of types at once, box a primitive actual type, and go to
the forms. -/
theorem reduce_step (c : InferenceContext) (conversion : Conversion) (f a : JavaType) :
    c.reduce conversion f a =
      if !f.mentions c.free then
        if c.admits conversion f a then .ok [] else .error (.incompatible f a)
      else if a.isNull then .ok []
      else c.boxActual conversion f a >>= c.compareForms conversion f := by
  unfold reduce
  cases c.boxActual conversion f a <;> rfl

/-- Only whole arguments are boxed. -/
theorem boxActual_withBoxing (strict : conversion ≠ .loose) :
    (c.withBoxing allowed).boxActual conversion f a = c.boxActual conversion f a := by
  unfold boxActual
  simp only [strict, false_and, if_false]

/-- Boxing plays no part in what is admitted, unless the conversion is loose. -/
theorem admits_withBoxing (strict : conversion ≠ .loose) :
    (c.withBoxing allowed).admits conversion f a = c.admits conversion f a := by
  cases conversion with
  | loose => exact absurd rfl strict
  | subtype => rfl
  | supertype => rfl

/-- Lists of type arguments are compared alike if their members are. -/
theorem reduceArguments_congr {d : InferenceContext} {fs : List JavaType}
    (each : ∀ f ∈ fs, ∀ a, d.compareArguments f a = c.compareArguments f a)
    (as : List JavaType) : d.reduceArguments fs as = c.reduceArguments fs as := by
  induction fs generalizing as with
  | nil => rw [reduceArguments_nil (.inl rfl), reduceArguments_nil (.inl rfl)]
  | cons f fs ih =>
    obtain ⟨here, others⟩ := List.forall_mem_cons.mp each
    cases as with
    | nil => rw [reduceArguments_nil (.inr rfl), reduceArguments_nil (.inr rfl)]
    | cons a as => rw [reduceArguments_cons, reduceArguments_cons, here, ih others]

/-- Type arguments are compared alike if smaller types are, and all types are equated alike. -/
theorem compareArguments_congr {d : InferenceContext}
    (equal : ∀ g a : JavaType, d.reduceEqual g a = c.reduceEqual g a)
    (parts : ∀ g : JavaType, g.size < f.size → ∀ conversion a, conversion ≠ .loose →
      d.reduce conversion g a = c.reduce conversion g a) (a : JavaType) :
    d.compareArguments f a = c.compareArguments f a := by
  unfold compareArguments
  split
  · rename_i kind bound
    cases bound with
    | none => rfl
    | some bound =>
      unfold reduceWildcard
      split <;> first | rfl | exact parts _ JavaType.size_lt_wildcard _ _ Conversion.noConfusion
  · split
    · rfl
    · exact equal _ _

/-- The forms of types are compared alike with boxing and without, if smaller types are. -/
theorem compareForms_congr
    (parts : ∀ g : JavaType, g.size < f.size → ∀ conversion a, conversion ≠ .loose →
      (c.withBoxing allowed).reduce conversion g a = c.reduce conversion g a) (a : JavaType) :
    (c.withBoxing allowed).compareForms conversion f a = c.compareForms conversion f a := by
  cases f with
  | declared name args =>
    have each (f : JavaType) (hf : f ∈ args) (a : JavaType) :
        (c.withBoxing allowed).compareArguments f a = c.compareArguments f a :=
      compareArguments_congr reduceEqual_withBoxing
        (fun g smaller => parts g (Nat.lt_trans smaller (JavaType.size_lt_of_mem hf))) a
    unfold compareForms
    simp only [reduceAbove_withBoxing, reduceArguments_congr each]
    rfl
  | array element =>
    cases a with
    | array other =>
      exact if_congr Iff.rfl (reduceEqual_withBoxing element other)
        (parts element (Nat.lt_add_of_pos_left Nat.one_pos) _ _ Conversion.noConfusion)
    | _ => rfl
  | _ => cases a <;> rfl

/-- Below whole arguments, types are compared without boxing, allowed or not. -/
theorem reduce_withBoxing (conversion : Conversion) (f a : JavaType)
    (strict : conversion ≠ .loose) :
    (c.withBoxing allowed).reduce conversion f a = c.reduce conversion f a := by
  have forms : (c.withBoxing allowed).compareForms conversion f = c.compareForms conversion f :=
    funext (compareForms_congr fun g _ conversion a => reduce_withBoxing conversion g a)
  rw [reduce_step, reduce_step, boxActual_withBoxing strict, admits_withBoxing strict, forms]
  rfl
termination_by f.size

/-- Boxing plays no part behind the boxing of the argument. -/
theorem compareForms_withBoxing :
    (c.withBoxing allowed).compareForms conversion f = c.compareForms conversion f :=
  funext (compareForms_congr fun g _ conversion a => reduce_withBoxing conversion g a)

/-! ### Whole arguments -/

/-- A type that stays without boxing is a reference, which is never boxed. -/
theorem boxActual_of_withBoxing_false {b : JavaType}
    (h : (c.withBoxing false).boxActual conversion f a = .ok b) :
    c.boxActual conversion f a = .ok b := by
  cases reference : a.isPrimitive with
  | false =>
    rw [boxActual_of_reference reference] at h ⊢
    exact h
  | true =>
    unfold boxActual at h
    rw [if_pos reference] at h
    split at h
    · rw [if_neg fun both => Bool.false_ne_true both.2] at h
      cases h
    · cases h

/-- An argument that is reduced without boxing is reduced to the same bounds with it. -/
theorem reduce_of_withBoxing_false {bounds : List Bound}
    (h : (c.withBoxing false).reduce .loose f a = .ok bounds) :
    c.reduce .loose f a = .ok bounds := by
  rw [reduce_step] at h ⊢
  change (if !f.mentions c.free then _ else _) = _ at h
  split
  · rename_i closed
    rw [if_pos closed] at h
    split at h
    · rename_i admitted
      have admits : c.admits .loose f a = true :=
        ClassTable.isAssignable_of_false admitted c.boxing
      rwa [if_pos admits]
    · cases h
  · rename_i mentioned
    rw [if_neg mentioned] at h
    split
    · rename_i value
      rwa [if_pos value] at h
    · rename_i value
      rw [if_neg value] at h
      obtain ⟨b, boxed, h⟩ := Except.bind_eq_ok.mp h
      rw [boxActual_of_withBoxing_false boxed]
      rwa [compareForms_withBoxing] at h

/-- Arguments that are reduced without boxing are reduced to the same bounds with it. -/
theorem reduceAll_of_withBoxing_false {pairs : List (JavaType × JavaType)} {bounds : List Bound}
    (h : (c.withBoxing false).reduceAll pairs = .ok bounds) : c.reduceAll pairs = .ok bounds := by
  induction pairs generalizing bounds with
  | nil => exact h
  | cons pair pairs ih =>
    obtain ⟨f, a⟩ := pair
    rw [reduceAll] at h ⊢
    obtain ⟨here, hhere, h⟩ := Except.bind_eq_ok.mp h
    obtain ⟨others, hothers, h⟩ := Except.bind_eq_ok.mp h
    rw [reduce_of_withBoxing_false hhere, ih hothers]
    exact h

/-- An instantiation that is found without boxing is found with it too. -/
theorem instantiate_of_withBoxing_false {params actuals : List JavaType} {ret : JavaType}
    {found : Instantiation}
    (h : (c.withBoxing false).instantiate params ret actuals = .ok found) :
    c.instantiate params ret actuals = .ok found := by
  obtain ⟨lengths, bounds, reduced, resolved, params, ret, assignable⟩ :=
    instantiate_eq_ok_iff.mp h
  exact instantiate_eq_ok_iff.mpr
    ⟨lengths, bounds, reduceAll_of_withBoxing_false reduced, resolved, params, ret,
      fun pair hpair => ClassTable.isAssignable_of_false (assignable pair hpair) c.boxing⟩

end InferenceContext

end JavaRefactor
