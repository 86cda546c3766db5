import JavaRefactor.Proofs.Hierarchy.Arity
import JavaRefactor.Proofs.Hierarchy.Containment

/-!
# The forms of subtypes

A type that is below a class or an array, and that is not `null` and does not stand for another
type, is a class type or an array itself (`ClassTable.exists_view_of_below`,
`ClassTable.exists_element_of_below`), and what is above a class type is a class type
(`ClassTable.exists_view_of_above`).  Of two class types the one below has a view as the class of
the other, whose arguments fit those of the other (`ClassTable.ArgumentsFit`).
-/

namespace JavaRefactor

namespace JavaType

/-- Types that are the same one by one are as many. -/
theorem length_eq_of_isSameEach {as bs : List JavaType} (h : isSameEach as bs = true) :
    as.length = bs.length := by
  induction as generalizing bs with
  | nil =>
    cases bs with
    | nil => rfl
    | cons _ _ => exact absurd h Bool.false_ne_true
  | cons a as ih =>
    cases bs with
    | nil => exact absurd h Bool.false_ne_true
    | cons b bs =>
      rw [isSameEach, Bool.and_eq_true] at h
      rw [List.length_cons, List.length_cons, ih h.2]

/-- Of types that are the same one by one, those at one place are the same. -/
theorem isSame_of_mem_zip {as bs : List JavaType} (h : isSameEach as bs = true)
    {p : JavaType × JavaType} (hp : p ∈ as.zip bs) : p.1.isSame p.2 = true := by
  induction as generalizing bs with
  | nil => exact absurd hp (by simp)
  | cons a as ih =>
    cases bs with
    | nil => exact absurd hp (by simp)
    | cons b bs =>
      rw [isSameEach, Bool.and_eq_true] at h
      rcases List.mem_cons.mp hp with rfl | hp
      · exact h.1
      · exact ih h.2 hp

/-- A reference is not boxed. -/
theorem boxed?_of_reference {type : JavaType} (reference : type.isPrimitive = false) :
    type.boxed? = none := by
  cases type with
  | primitive p =>
    cases p with
    | null => rfl
    | _ => exact absurd reference (by decide)
  | _ => rfl

/-- A type that is boxed is primitive, and the result is a class type without arguments. -/
theorem exists_of_boxed? {type wrapper : JavaType} (boxed : type.boxed? = some wrapper) :
    type.isPrimitive = true ∧ ∃ name, wrapper = .ofClass name := by
  cases reference : type.isPrimitive with
  | false => exact absurd (boxed.symm.trans (boxed?_of_reference reference)) (by simp)
  | true =>
    cases type with
    | primitive p =>
      obtain ⟨name, -, rfl⟩ := Option.map_eq_some_iff.mp boxed
      exact ⟨rfl, name, rfl⟩
    | _ => exact absurd reference Bool.false_ne_true

end JavaType

/-- A type that is no wildcard contains what is the same. -/
theorem containsArgument_of_plain {a b : JavaType}
    {below : JavaType → JavaType → Option Bool}
    (plain : a.isWildcard = false) : containsArgument below a b = some (a.isSame b) := by
  cases a with
  | wildcard _ _ => exact absurd plain (by simp [JavaType.isWildcard])
  | _ => rfl

namespace ClassTable

variable {t : ClassTable} {unchecked : Bool} {n : Nat} {a b : JavaType}

/-- The arguments of a view fit those of a class: one of both is raw, or the arguments of the class
contain those of the view. -/
def ArgumentsFit (t : ClassTable) (unchecked : Bool) (args viewArgs : List JavaType) : Prop :=
  args = [] ∨ viewArgs = [] ∨ viewArgs.length = args.length ∧ ∃ n, ∀ p ∈ args.zip viewArgs,
    containsArgument (t.subtypeWithin unchecked n) p.1 p.2 = some true

/-- An argument contains what is the same. -/
theorem containsArgument_of_isSame (same : a.isSame b = true) :
    containsArgument (t.subtypeWithin unchecked (n + 1)) a b = some true := by
  cases a with
  | wildcard kind bound =>
    cases b with
    | wildcard kind' bound' =>
      rw [JavaType.isSame, Bool.and_eq_true, beq_iff_eq] at same
      obtain ⟨rfl, same⟩ := same
      cases bound with
      | none => cases kind <;> rfl
      | some x =>
        cases bound' with
        | none => exact absurd same Bool.false_ne_true
        | some y =>
          cases kind with
          | unbounded => rfl
          | upper =>
            have back : y.isSame x = true := (JavaType.isSame_comm y x).trans same
            exact subtypeWithin_of_isSame back
          | lower => exact subtypeWithin_of_isSame same
    | _ => exact absurd same Bool.false_ne_true
  | _ => exact congrArg some same

/-- The arguments of a class fit those that are the same. -/
theorem argumentsFit_of_isSameEach {as bs : List JavaType}
    (same : JavaType.isSameEach as bs = true) : t.ArgumentsFit unchecked bs as := by
  have back : JavaType.isSameEach bs as = true := (JavaType.isSameEach_comm bs as).trans same
  refine .inr (.inr ⟨JavaType.length_eq_of_isSameEach same, 1, fun p hp => ?_⟩)
  exact containsArgument_of_isSame (JavaType.isSame_of_mem_zip back hp)

/-- A class type below another has a view as the class of the other, unless both are the root
class. -/
theorem view_of_below {name target : String} {args sups : List JavaType}
    (h : t.subtypeWithin unchecked n (.declared name args) (.declared target sups) = some true)
    (proper : name ≠ JavaType.objectName ∨ target ≠ JavaType.objectName) :
    ∃ m other vs,
      t.asSuperWithin m (.declared name args) target = some (some (.declared other vs)) ∧
        t.ArgumentsFit unchecked sups vs := by
  rcases view_of_subtypeWithin h with ⟨rfl, same⟩ | root | ⟨m, view, rfl, found, fits⟩
  · refine ⟨1, name, args, ?_, argumentsFit_of_isSameEach same⟩
    unfold asSuperWithin
    exact if_pos rfl
  · have different : name ≠ target := by
      rintro rfl
      rcases proper with h | h <;> exact h root
    refine ⟨1, JavaType.objectName, [], ?_, .inr (.inl rfl)⟩
    unfold asSuperWithin
    rw [if_neg different, if_pos root]
    rfl
  · unfold viewFits at fits
    split at fits
    · rename_i other vs
      refine ⟨m + 1, other, vs, found, ?_⟩
      split at fits
      · rename_i raw
        exact .inl (List.isEmpty_iff.mp raw)
      · split at fits
        · rename_i raw
          exact .inr (.inl (List.isEmpty_iff.mp raw))
        · split at fits
          · rename_i length
            exact .inr (.inr ⟨length, m, allPairs_eq_true_iff.mp fits⟩)
          · exact absurd fits (by decide)
    · exact absurd fits (by decide)

/-- The budget of a view has room for the first step. -/
theorem exists_viewBudget_eq_succ (t : ClassTable) (type : JavaType) :
    ∃ k, t.viewBudget type = k + 1 :=
  Nat.exists_eq_succ_of_ne_zero (Nat.ne_zero_of_lt (t.size_lt_viewBudget type))

/-- An array is seen as the classes above all arrays. -/
theorem asSuper?_array {element : JavaType} {target : String} :
    t.asSuper? (.array element) target =
      if target ∈ arraySupertypes then some (.ofClass target) else none := by
  obtain ⟨k, budget⟩ := t.exists_viewBudget_eq_succ (.array element)
  rw [asSuper?, budget, asSuperWithin, Option.join_some]

/-- A primitive type is seen as no class. -/
theorem asSuper?_primitive {p : Primitive} {target : String} :
    t.asSuper? (.primitive p) target = none := by
  obtain ⟨k, budget⟩ := t.exists_viewBudget_eq_succ (.primitive p)
  rw [asSuper?, budget, asSuperWithin, Option.join_some]
  · exact fun _ _ h => JavaType.noConfusion h
  · exact fun _ h => JavaType.noConfusion h
  · exact fun _ _ _ h => JavaType.noConfusion h

/-- What is below a class other than the root class, and is not `null` and stands for no other type,
has a view as the class. -/
theorem exists_view_of_below (acyclic : t.Acyclic) (supers : t.ClassSupertypes) {target : String}
    {sups : List JavaType} (proper : target ≠ JavaType.objectName) (free : a.VariableFree)
    (plain : a.isWildcard = false) (value : a.isNull = false)
    (h : t.subtypeWithin unchecked n a (.declared target sups) = some true) :
    ∃ other vs, t.asSuper? a target = some (.declared other vs) ∧
      t.ArgumentsFit unchecked sups vs := by
  cases n with
  | zero => exact absurd h (by simp [subtypeWithin])
  | succ n =>
    cases a with
    | declared name args =>
      obtain ⟨m, other, vs, found, fit⟩ := view_of_below h (.inr proper)
      exact ⟨other, vs, asSuper?_eq acyclic supers found, fit⟩
    | array element =>
      have top : target ∈ arraySupertypes := by
        by_contra other
        simp [subtypeWithin, JavaType.isSame, JavaType.className?, proper, asSuperWithin,
          other] at h
      refine ⟨target, [], ?_, .inr (.inl rfl)⟩
      rw [asSuper?_array, if_pos top]
    | var _ _ _ => exact absurd free JavaType.VariableFree.not_var
    | wildcard _ _ => exact absurd plain (by simp [JavaType.isWildcard])
    | primitive p =>
      cases p with
      | null => exact absurd value (by simp [JavaType.isNull])
      | _ => simp [subtypeWithin, JavaType.isSame, JavaType.className?, proper] at h
    | _ => simp [subtypeWithin, JavaType.isSame, JavaType.className?, proper] at h

/-- What is below an array, and is not `null` and stands for no other type, is an array, with a
smaller element or the same. -/
theorem exists_element_of_below {element : JavaType} (free : a.VariableFree)
    (plain : a.isWildcard = false) (value : a.isNull = false)
    (h : t.subtypeWithin unchecked n a (.array element) = some true) :
    ∃ x, a = .array x ∧ (x.isSame element = true ∨ x.isPrimitive = false ∧
      ∃ m, t.subtypeWithin unchecked m x element = some true) := by
  cases n with
  | zero => exact absurd h (by simp [subtypeWithin])
  | succ n =>
    cases a with
    | array x =>
      refine ⟨x, rfl, ?_⟩
      unfold subtypeWithin at h
      split at h
      · rename_i same
        exact .inl same
      · change (if (x.isPrimitive || element.isPrimitive) = true then _ else _) = _ at h
        split at h
        · obtain rfl : x = element := beq_iff_eq.mp (Option.some.inj h)
          exact .inl (JavaType.isSame_refl x)
        · rename_i reference
          rw [Bool.not_eq_true, Bool.or_eq_false_iff] at reference
          exact .inr ⟨reference.1, n, h⟩
    | var _ _ _ => exact absurd free JavaType.VariableFree.not_var
    | wildcard _ _ => exact absurd plain (by simp [JavaType.isWildcard])
    | primitive p =>
      cases p with
      | null => exact absurd value (by simp [JavaType.isNull])
      | _ => simp [subtypeWithin, JavaType.isSame, JavaType.className?] at h
    | _ => simp [subtypeWithin, JavaType.isSame, JavaType.className?] at h

/-- What is above a class type other than the root class is a class type, unless it is a type
variable. -/
theorem exists_view_of_above {name : String} {args : List JavaType}
    (proper : name ≠ JavaType.objectName) (free : b.VariableFree)
    (h : t.subtypeWithin unchecked n (.declared name args) b = some true) :
    ∃ target sups m other vs, b = .declared target sups ∧
      t.asSuperWithin m (.declared name args) target = some (some (.declared other vs)) ∧
        t.ArgumentsFit unchecked sups vs := by
  cases b with
  | declared target sups =>
    obtain ⟨m, other, vs, found, fit⟩ := view_of_below h (.inl proper)
    exact ⟨target, sups, m, other, vs, rfl, found, fit⟩
  | var _ _ _ => exact absurd free JavaType.VariableFree.not_var
  | _ =>
    cases n with
    | zero => exact absurd h (by simp [subtypeWithin])
    | succ n => simp [subtypeWithin, JavaType.isSame, JavaType.className?] at h

/-- Either both or none of two types are primitive, if one is below the other. -/
theorem isPrimitive_eq_of_below (h : t.subtypeWithin unchecked n a b = some true) :
    a.isPrimitive = b.isPrimitive := by
  cases n with
  | zero => exact absurd h (by simp [subtypeWithin])
  | succ n =>
    cases a with
    | primitive p =>
      cases b with
      | primitive q =>
        cases p <;> cases q <;>
          first
          | rfl
          | exact absurd h (by simp [subtypeWithin, JavaType.isSame, JavaType.className?,
              JavaType.isReference, JavaType.isNull, Primitive.widensTo])
      | _ =>
        cases p with
        | null => rfl
        | _ =>
          simp [subtypeWithin, JavaType.isSame, JavaType.className?, JavaType.isReference,
            JavaType.isNull] at h
    | _ =>
      cases b with
      | primitive q => simp [subtypeWithin, JavaType.isSame, JavaType.className?] at h
      | _ => rfl

/-- What is assignable to a reference type is below it, or is boxed to what is below it. -/
theorem isSubtype_of_isAssignable {boxing : Bool} (h : t.isAssignable a b boxing = true)
    (reference : b.isPrimitive = false) :
    a.isPrimitive = false ∧ t.isSubtypeUnchecked a b = true ∨
      boxing = true ∧ ∃ wrapper, a.boxed? = some wrapper ∧
        t.isSubtypeUnchecked wrapper b = true := by
  unfold isAssignable at h
  split at h
  · rename_i below
    obtain ⟨n, within⟩ := isSubtypeIn_iff.mp below
    exact .inl ⟨(isPrimitive_eq_of_below within).trans reference, below⟩
  · cases boxing with
    | false => exact absurd h Bool.false_ne_true
    | true =>
      change (if a.isPrimitive = true then _ else _) = true at h
      split at h
      · split at h
        · rename_i wrapper boxed
          exact .inr ⟨rfl, wrapper, boxed, isSubtypeUnchecked_of_isSubtype h⟩
        · exact absurd h Bool.false_ne_true
      · rw [reference] at h
        exact absurd h Bool.false_ne_true

end ClassTable

end JavaRefactor
