import JavaRefactor.Proofs.Hierarchy.Instances

/-!
# Arities

A class type fits the arity of its class if it is raw or has as many arguments as the class
takes.  If all declared supertypes fit, then so does every view of a type that fits
(`ClassTable.ArityCorrect.fits_view`).
-/

namespace JavaRefactor

namespace JavaType

/-- A class type has no arguments, or as many as its class takes; so has the class type at the
end of the bounds of a type variable, and that of the elements of an array. -/
def FitsArity (arity : String → Nat) : JavaType → Prop
  | .declared name args => args = [] ∨ args.length = arity name
  | .array element => FitsArity arity element
  | .var _ upper _ => FitsArity arity upper
  | _ => True

variable {arity : String → Nat}

/-- The bound of a type variable fits if the variable does. -/
theorem FitsArity.upperBound {t : JavaType} (fits : t.FitsArity arity) :
    t.upperBound.FitsArity arity := by
  match t with
  | .var _ upper _ => exact FitsArity.upperBound (t := upper) fits
  | .primitive _ | .declared _ _ | .array _ | .wildcard _ _ | .method _ _ | .generic _ _
  | .unknown => exact fits

end JavaType

namespace ClassTable

/-- The arities are those of the declared classes, and the declared supertypes are class types
that fit them. -/
structure ArityCorrect (t : ClassTable) (arity : String → Nat) : Prop where
  params : ∀ name d, t.find? name = some d → arity name = d.typeParams.length
  classes : t.ClassSupertypes
  supertypes : ∀ name d, t.find? name = some d → ∀ s ∈ d.supertypes, s.FitsArity arity

variable {t : ClassTable} {arity : String → Nat}

/-- Arities are correct if they are for each class of the table. -/
theorem arityCorrect_of_forall_mem
    (h : ∀ d ∈ t.classes, arity d.name = d.typeParams.length ∧
      ∀ s ∈ d.supertypes, ∃ sup args, s = .declared sup args ∧
        (args = [] ∨ args.length = arity sup)) : t.ArityCorrect arity where
  params name d found := by
    rw [← name_of_find? found]
    exact (h d (mem_of_find? found)).1
  classes name d found s hs := by
    obtain ⟨sup, args, rfl, -⟩ := (h d (mem_of_find? found)).2 s hs
    exact ⟨sup, args, rfl⟩
  supertypes name d found s hs := by
    obtain ⟨sup, args, rfl, fits⟩ := (h d (mem_of_find? found)).2 s hs
    exact fits

/-- A regular table has correct arities. -/
theorem Regular.arityCorrect (regular : t.Regular arity) : t.ArityCorrect arity where
  params := regular.params
  classes := regular.classSupertypes
  supertypes name d found s hs := by
    obtain ⟨sup, args, rfl, full, -⟩ :=
      ClassDecl.admits_iff.mp (regular.supertypes name d found s hs)
    exact .inr full

/-- A direct supertype fits, whatever arguments it is seen with. -/
theorem ArityCorrect.fits_directSupertype (correct : t.ArityCorrect arity) {s v : JavaType}
    (step : t.DirectSupertype s v) : v.FitsArity arity := by
  obtain ⟨found, hs⟩ := step
  rename_i name args d sup
  obtain ⟨top, us, rfl⟩ := correct.classes name d found sup hs
  have fits := correct.supertypes name d found _ hs
  unfold ClassDecl.viewSupertype
  split
  · exact .inl rfl
  · rcases fits with rfl | full
    · exact .inl rfl
    · refine .inr ?_
      rw [JavaType.substituteEach_eq_map, List.length_map, full]

/-- What a chain reaches from a type that fits, fits. -/
theorem ArityCorrect.fits_chain (correct : t.ArityCorrect arity) {s v : JavaType}
    (fits : s.FitsArity arity) (chain : t.Chain s v) : v.FitsArity arity := by
  induction chain with
  | refl => exact fits
  | tail _ step _ => exact correct.fits_directSupertype step

/-- The views of a type that fits are types of the class in question that fit. -/
theorem ArityCorrect.fits_view (correct : t.ArityCorrect arity) {n : Nat} {name target : String}
    {args : List JavaType} {v : JavaType} (fits : (JavaType.declared name args).FitsArity arity)
    (h : t.asSuperWithin n (.declared name args) target = some (some v)) :
    ∃ vs, v = .declared target vs ∧ (vs = [] ∨ vs.length = arity target) := by
  rcases chain_of_asSuperWithin correct.classes h with ⟨rfl, rfl⟩ | ⟨named, chain⟩
  · exact ⟨[], rfl, .inl rfl⟩
  · obtain ⟨top, vs, rfl, -⟩ := chain.inherits correct.classes
    obtain rfl := Option.some.inj named
    exact ⟨vs, rfl, correct.fits_chain fits chain⟩

end ClassTable

end JavaRefactor
