import JavaRefactor.Proofs.Hierarchy.Arity
import JavaRefactor.Proofs.Hierarchy.CommonClass

/-!
# The bound of class types

The bound of class types merges the views that the types have of a common class: an argument on
which they do not agree becomes an unbounded wildcard.  Each view fits the merged arguments
(`ClassTable.viewFits_mergeArguments`), so each type is a subtype of the bound
(`ClassTable.subtypeWithin_lubClasses`), with an unchecked conversion where it sees the bound
as a raw type.
-/

namespace JavaRefactor

/-! ### Merged arguments -/

/-- A type argument contains itself if its bound is below itself. -/
theorem containsArgument_self {below : JavaType → JavaType → Option Bool}
    (refl : ∀ b, below b b = some true) (arg : JavaType) :
    containsArgument below arg arg = some true := by
  cases arg with
  | wildcard kind bound =>
    cases bound with
    | none => cases kind <;> rfl
    | some b =>
      cases kind with
      | unbounded => rfl
      | upper => exact refl b
      | lower => exact refl b
  | _ => exact congrArg some (JavaType.isSame_refl _)

namespace ClassTable

variable {t : ClassTable} {arity : String → Nat}

/-- Merging arguments does not change how many there are. -/
@[simp] theorem length_mergeArguments (views firstArgs : List JavaType) :
    (mergeArguments views firstArgs).length = firstArgs.length := List.length_mapIdx

/-- A merged argument is an unbounded wildcard, or the argument of each view. -/
theorem getElem_mergeArguments {views firstArgs args : List JavaType} {target : String}
    (view : .declared target args ∈ views) {i : Nat}
    (hi : i < (mergeArguments views firstArgs).length) :
    (mergeArguments views firstArgs)[i] = .wildcard .unbounded none ∨
      args[i]? = some (mergeArguments views firstArgs)[i] := by
  simp only [mergeArguments, List.getElem_mapIdx]
  split
  · rename_i agree
    exact .inr (by simpa using List.all_eq_true.mp agree _ view)
  · exact .inl rfl

/-- The merged arguments contain those of each view. -/
theorem viewFits_mergeArguments {below : JavaType → JavaType → Option Bool}
    (refl : ∀ b, below b b = some true) {views : List JavaType} {target : String}
    {firstArgs args : List JavaType} (view : .declared target args ∈ views)
    (fits : args = [] ∨ firstArgs = [] ∨ args.length = firstArgs.length) {unchecked : Bool}
    (raw : args = [] → firstArgs = [] ∨ unchecked = true) :
    viewFits below unchecked (mergeArguments views firstArgs) (some (.declared target args)) =
      some true := by
  unfold viewFits
  simp only [List.isEmpty_iff_length_eq_zero, length_mergeArguments]
  by_cases plain : firstArgs.length = 0
  · rw [if_pos plain]
  rw [if_neg plain]
  have plain' : firstArgs ≠ [] := fun e => plain (List.length_eq_zero_iff.mpr e)
  by_cases empty : args.length = 0
  · rw [if_pos empty, (raw (List.length_eq_zero_iff.mp empty)).resolve_left plain']
  have same : args.length = firstArgs.length :=
    (fits.resolve_left fun e => empty (List.length_eq_zero_iff.mpr e)).resolve_left plain'
  rw [if_neg empty, if_pos same]
  refine allPairs_eq_true_iff.mpr fun p hp => ?_
  obtain ⟨i, hi, rfl⟩ := List.getElem_of_mem hp
  rw [List.getElem_zip]
  rcases getElem_mergeArguments view (List.lt_length_left_of_zip hi) with free | agree
  · rw [free]
    rfl
  · obtain ⟨_, agree⟩ := List.getElem?_eq_some_iff.mp agree
    rw [← agree]
    exact containsArgument_self refl _

/-! ### The bound of class types -/

/-- A class type is seen as a raw type of the class of a parameterized type. -/
def SeesRaw (t : ClassTable) (s bound : JavaType) : Prop :=
  ∃ c args, bound = .declared c args ∧ args ≠ [] ∧ t.asSuper? s c = some (.ofClass c)

/-- Views of a type that fits are types of the class in question that fit. -/
theorem ArityCorrect.fits_asSuper? (correct : t.ArityCorrect arity) {s v : JavaType}
    {target : String} (class_type : s.isDeclared = true) (fits : s.FitsArity arity)
    (h : t.asSuper? s target = some v) :
    ∃ vs, v = .declared target vs ∧ (vs = [] ∨ vs.length = arity target) := by
  cases s with
  | declared name args => exact correct.fits_view fits (Option.join_eq_some_iff.mp h)
  | _ => exact absurd class_type Bool.false_ne_true

/-- The views that class types have of their common class. -/
def commonViews (t : ClassTable) (types : List JavaType) : List JavaType :=
  types.filterMap fun s => t.asSuper? s (t.commonClass types)

/-- The bound of class types is a type of their common class. -/
theorem exists_lubClasses_eq (t : ClassTable) (types : List JavaType) :
    ∃ args, t.lubClasses types = .declared (t.commonClass types) args := by
  unfold lubClasses
  simp only
  split
  · exact ⟨_, rfl⟩
  · exact ⟨_, rfl⟩

section ClassTypes

variable {types : List JavaType} (correct : t.ArityCorrect arity)
  (class_types : ∀ s ∈ types, s.isDeclared = true) (fits : ∀ s ∈ types, s.FitsArity arity)
include correct class_types fits

/-- The common views have all arguments of the common class, or none. -/
theorem ArityCorrect.fits_commonViews {v : JavaType} (hv : v ∈ t.commonViews types) :
    ∃ vs, v = .declared (t.commonClass types) vs ∧
      (vs = [] ∨ vs.length = arity (t.commonClass types)) := by
  obtain ⟨s, hs, seen⟩ := List.mem_filterMap.mp hv
  exact correct.fits_asSuper? (class_types s hs) (fits s hs) seen

/-- Where a type has a view, the bound has the merged arguments of all views, as many as the
first of them has. -/
theorem ArityCorrect.lubClasses_eq_merge {v : JavaType} (hv : v ∈ t.commonViews types) :
    ∃ firstArgs, t.lubClasses types =
        .declared (t.commonClass types) (mergeArguments (t.commonViews types) firstArgs) ∧
      (firstArgs = [] ∨ firstArgs.length = arity (t.commonClass types)) := by
  obtain ⟨first, rest, views⟩ := List.exists_cons_of_ne_nil (List.ne_nil_of_mem hv)
  obtain ⟨firstArgs, rfl, few⟩ :=
    correct.fits_commonViews class_types fits (views ▸ List.mem_cons_self)
  refine ⟨firstArgs, ?_, few⟩
  unfold commonViews at views ⊢
  unfold lubClasses
  simp only [views, List.head?_cons]

/-- A class type that is seen as the common class is a subtype of the bound: in the checked form,
too, unless its view is raw and the bound is not. -/
theorem ArityCorrect.subtypeWithin_of_view {n : Nat} {name : String} {args vs : List JavaType}
    (hv : .declared (t.commonClass types) vs ∈ t.commonViews types)
    (found : t.asSuperWithin (n + 1 + 1) (.declared name args) (t.commonClass types) =
      some (some (.declared (t.commonClass types) vs)))
    (seen : t.asSuper? (.declared name args) (t.commonClass types) =
      some (.declared (t.commonClass types) vs)) :
    t.subtypeWithin true (n + 1 + 1) (.declared name args) (t.lubClasses types) = some true ∧
      (t.subtypeWithin false (n + 1 + 1) (.declared name args) (t.lubClasses types) = some true ∨
        t.SeesRaw (.declared name args) (t.lubClasses types)) := by
  obtain ⟨us, same, few⟩ := correct.fits_commonViews class_types fits hv
  obtain ⟨-, rfl⟩ := JavaType.declared.inj same
  obtain ⟨firstArgs, merged, few'⟩ := correct.lubClasses_eq_merge class_types fits hv
  have lengths : vs = [] ∨ firstArgs = [] ∨ vs.length = firstArgs.length :=
    few.imp_right fun few => few'.imp_right fun few' => few.trans few'.symm
  have step {unchecked : Bool} (raw : vs = [] → firstArgs = [] ∨ unchecked = true) :
      t.subtypeWithin unchecked (n + 1 + 1) (.declared name args) (t.lubClasses types) =
        some true := by
    rw [merged]
    exact subtypeWithin_declared found (viewFits_mergeArguments
      (fun b => subtypeWithin_of_isSame (JavaType.isSame_refl b)) hv lengths raw)
  refine ⟨step fun _ => .inr rfl, ?_⟩
  by_cases raw : vs = [] ∧ firstArgs ≠ []
  · obtain ⟨rfl, full⟩ := raw
    refine .inr ⟨_, _, merged, fun empty => full ?_, seen⟩
    rw [← List.length_eq_zero_iff, ← length_mergeArguments, empty, List.length_nil]
  · exact .inl (step fun empty => .inl (by_contra fun full => raw ⟨empty, full⟩))

/-- Class types are subtypes of their bound: in the checked form, too, unless they see it as a
raw type. -/
theorem subtypeWithin_lubClasses (acyclic : t.Acyclic) {s : JavaType} (hs : s ∈ types) {n : Nat}
    (enough : t.size < n) :
    t.subtypeWithin true (n + 1) s (t.lubClasses types) = some true ∧
      (t.subtypeWithin false (n + 1) s (t.lubClasses types) = some true ∨
        t.SeesRaw s (t.lubClasses types)) := by
  obtain ⟨m, rfl⟩ : ∃ m, n = m + 1 := ⟨n - 1, by omega⟩
  cases s with
  | declared name args =>
    rcases isAbove_commonClass class_types _ hs with root | ⟨_, _, same, way⟩
    · have top : (t.lubClasses types).className? = some JavaType.objectName := by
        obtain ⟨_, bound⟩ := t.exists_lubClasses_eq types
        rw [bound, ← root]
        rfl
      exact ⟨subtypeWithin_root top rfl, .inl (subtypeWithin_root top rfl)⟩
    · obtain ⟨rfl, rfl⟩ := JavaType.declared.inj same
      obtain ⟨v, seen, found⟩ := exists_asSuper? acyclic correct.classes way args
      have hv : v ∈ t.commonViews types := List.mem_filterMap.mpr ⟨_, hs, seen⟩
      obtain ⟨vs, rfl, -⟩ := correct.fits_commonViews class_types fits hv
      exact correct.subtypeWithin_of_view class_types fits hv (found _ (by omega)) seen
  | _ => exact absurd (class_types _ hs) Bool.false_ne_true

end ClassTypes

end ClassTable

end JavaRefactor
