import JavaRefactor.Hierarchy.LeastUpperBound
import JavaRefactor.Proofs.Hierarchy.Views

/-!
# Rules of subtyping

What makes one type a subtype of another, one rule for each form of types, and the steps that
the decision takes to see it.  The budget of a view leaves room for as many steps as the table has
classes (`ClassTable.size_lt_viewBudget`), and whatever some number of steps decides is the decision
(`ClassTable.isSubtypeIn_of_subtypeWithin`).
-/

namespace JavaRefactor

/-- All pairs are decided positively if each of them is. -/
theorem allPairs_eq_true_iff {decision : JavaType → JavaType → Option Bool}
    {ps : List (JavaType × JavaType)} :
    allPairs decision ps = some true ↔ ∀ p ∈ ps, decision p.1 p.2 = some true := by
  induction ps with
  | nil => simp [allPairs]
  | cons p ps ih =>
    obtain ⟨a, b⟩ := p
    rw [allPairs, List.forall_mem_cons, ← ih]
    split
    · rename_i here
      simp [here]
    · rename_i other
      exact ⟨fun h => absurd h other, fun h => absurd h.1 other⟩

/-- What contains an argument still does so if more types are below others. -/
theorem containsArgument_eq_true_mono {f g : JavaType → JavaType → Option Bool}
    (h : ∀ a b, f a b = some true → g a b = some true) {formal actual : JavaType}
    (contains : containsArgument f formal actual = some true) :
    containsArgument g formal actual = some true := by
  unfold containsArgument at contains ⊢
  split at contains <;> first | exact contains | exact h _ _ contains

/-- A view that fits in the checked form fits in the unchecked form, also if more types are below
others. -/
theorem viewFits_unchecked {f g : JavaType → JavaType → Option Bool}
    (h : ∀ a b, f a b = some true → g a b = some true) {args : List JavaType}
    {view : Option JavaType} (fits : viewFits f false args view = some true) :
    viewFits g true args view = some true := by
  unfold viewFits at fits ⊢
  split at fits
  · split at fits
    · rename_i raw
      exact if_pos raw
    · rename_i _ generic
      rw [if_neg generic]
      split at fits
      · exact absurd fits (by decide)
      · rename_i full
        rw [if_neg full]
        split at fits
        · rename_i length
          rw [if_pos length]
          rw [allPairs_eq_true_iff] at fits ⊢
          exact fun p hp => containsArgument_eq_true_mono h (fits p hp)
        · exact absurd fits (by decide)
  · exact absurd fits (by decide)

namespace ClassTable

variable {t : ClassTable} {unchecked : Bool} {n : Nat} {sub sup : JavaType}

/-! ### Rules -/

/-- The same types are subtypes of each other. -/
theorem subtypeWithin_of_isSame (same : sub.isSame sup = true) :
    t.subtypeWithin unchecked (n + 1) sub sup = some true := by
  unfold subtypeWithin
  rw [if_pos same]

/-- Every reference is a subtype of the root class. -/
theorem subtypeWithin_root (root : sup.className? = some JavaType.objectName)
    (reference : sub.isReference = true) :
    t.subtypeWithin unchecked (n + 1) sub sup = some true := by
  unfold subtypeWithin
  rw [if_pos root, reference]
  split
  · rfl
  · rfl

/-- `null` is a subtype of every reference. -/
theorem subtypeWithin_null (reference : sup.isReference = true) :
    t.subtypeWithin unchecked (n + 1) (.primitive .null) sup = some true := by
  unfold subtypeWithin
  split
  · rfl
  · split
    · rfl
    · change some sup.isReference = some true
      rw [reference]

/-- A primitive type is a subtype of those that it widens to. -/
theorem subtypeWithin_primitive {p q : Primitive} (numeric : p ≠ .null)
    (widens : p.widensTo q = true) :
    t.subtypeWithin unchecked (n + 1) (.primitive p) (.primitive q) = some true := by
  unfold subtypeWithin
  split
  · rfl
  · split
    · rename_i root
      exact absurd root (by simp [JavaType.className?])
    · cases p with
      | null => exact absurd rfl numeric
      | _ => exact congrArg some widens

/-- A type variable is a subtype of what its upper bound is a subtype of. -/
theorem subtypeWithin_var {name : String} {upper : JavaType} {lower : Option JavaType}
    (reference : sup.isArray = true ∨ sup.isDeclared = true)
    (h : t.subtypeWithin unchecked n upper sup = some true) :
    t.subtypeWithin unchecked (n + 1) (.var name upper lower) sup = some true := by
  unfold subtypeWithin
  split
  · rfl
  · split
    · rfl
    · cases sup with
      | declared _ _ => exact h
      | array _ => exact h
      | _ =>
        rcases reference with array | declared
        · exact absurd array Bool.false_ne_true
        · exact absurd declared Bool.false_ne_true

/-- Arrays of references are covariant. -/
theorem subtypeWithin_array {a b : JavaType} (ha : a.isPrimitive = false)
    (hb : b.isPrimitive = false) (h : t.subtypeWithin unchecked n a b = some true) :
    t.subtypeWithin unchecked (n + 1) (.array a) (.array b) = some true := by
  unfold subtypeWithin
  split
  · rfl
  · change (if (a.isPrimitive || b.isPrimitive) = true then _ else _) = _
    rw [ha, hb]
    exact h

/-- Every array is a subtype of the classes above all arrays. -/
theorem subtypeWithin_arrayClass {a : JavaType} {name : String} {args : List JavaType}
    (top : name ∈ arraySupertypes) :
    t.subtypeWithin unchecked (n + 1) (.array a) (.declared name args) = some true := by
  unfold subtypeWithin
  split
  · rfl
  · split
    · rfl
    · change (t.asSuperWithin (n + 1) (.array a) name).map Option.isSome = some true
      unfold asSuperWithin
      rw [if_pos top]
      rfl

/-- A class type is a subtype of a class whose arguments contain those of its view. -/
theorem subtypeWithin_declared {name target : String} {args sup : List JavaType}
    {view : Option JavaType}
    (found : t.asSuperWithin (n + 1) (.declared name args) target = some view)
    (fits : viewFits (t.subtypeWithin unchecked n) unchecked sup view = some true) :
    t.subtypeWithin unchecked (n + 1) (.declared name args) (.declared target sup) =
      some true := by
  unfold subtypeWithin
  split
  · rfl
  · split
    · rfl
    · change (t.asSuperWithin (n + 1) (.declared name args) target).bind _ = _
      rw [found]
      exact fits

/-- A class type that is not below another by identity is below it by its view. -/
theorem view_of_subtypeWithin {name target : String} {args sup : List JavaType}
    (h : t.subtypeWithin unchecked n (.declared name args) (.declared target sup) = some true) :
    name = target ∧ JavaType.isSameEach args sup = true ∨ target = JavaType.objectName ∨
      ∃ m view, n = m + 1 ∧ t.asSuperWithin (m + 1) (.declared name args) target = some view ∧
        viewFits (t.subtypeWithin unchecked m) unchecked sup view = some true := by
  cases n with
  | zero => exact absurd h (by simp [subtypeWithin])
  | succ m =>
    unfold subtypeWithin at h
    split at h
    · rename_i same
      rw [JavaType.isSame, Bool.and_eq_true, beq_iff_eq] at same
      exact .inl same
    · split at h
      · rename_i root
        exact .inr (.inl (Option.some.inj root))
      · change (t.asSuperWithin (m + 1) (.declared name args) target).bind _ = _ at h
        obtain ⟨view, found, fits⟩ := Option.bind_eq_some_iff.mp h
        exact .inr (.inr ⟨m, view, rfl, found, fits⟩)

/-! ### Unchecked conversion -/

/-- What is decided to be a subtype without unchecked conversion is one with it. -/
theorem subtypeWithin_unchecked (h : t.subtypeWithin false n sub sup = some true) :
    t.subtypeWithin true n sub sup = some true := by
  induction n generalizing sub sup with
  | zero => exact absurd h (by simp [subtypeWithin])
  | succ n ih =>
    unfold subtypeWithin at h ⊢
    split
    · rfl
    · rename_i different
      rw [if_neg different] at h
      split
      · rename_i root
        rwa [if_pos root] at h
      · rename_i proper
        rw [if_neg proper] at h
        split at h
        all_goals first
          | exact h
          | exact ih h
          | skip
        · -- the elements of two arrays
          split at h
          · rename_i primitive
            rw [if_pos primitive]
            exact h
          · rename_i reference
            rw [if_neg reference]
            exact ih h
        · -- two class types
          obtain ⟨view, found, fits⟩ := Option.bind_eq_some_iff.mp h
          rw [found, Option.bind_some]
          exact viewFits_unchecked (fun a b => ih) fits

/-! ### Budgets -/

/-- The budget of a view is larger than the number of classes. -/
theorem size_lt_viewBudget (t : ClassTable) (type : JavaType) : t.size < t.viewBudget type := by
  calc t.size ≤ t.weight := t.size_le_weight
    _ < 2 ^ t.weight := Nat.lt_two_pow_self
    _ ≤ 2 ^ (t.weight + 1) := Nat.pow_le_pow_right Nat.two_pos (Nat.le_succ _)
    _ ≤ (t.weight + 2) ^ (t.weight + 1) := Nat.pow_le_pow_left (Nat.le_add_left _ _) _
    _ ≤ (t.weight + 2) ^ (t.weight + 1) * (type.size + 1) :=
      Nat.le_mul_of_pos_right _ (Nat.succ_pos _)

/-- What is decided within some number of steps is the decision. -/
theorem isSubtypeIn_of_subtypeWithin {answer : Bool}
    (h : t.subtypeWithin unchecked n sub sup = some answer) :
    t.isSubtypeIn unchecked sub sup = answer := by
  rcases Nat.le_total n (t.subtypeBudget sub sup) with enough | short
  · unfold isSubtypeIn
    rw [t.subtypeWithin_mono unchecked enough h]
  · unfold isSubtypeIn
    split
    · rename_i answer
      have long := t.subtypeWithin_mono unchecked short answer
      exact Option.some.inj (long.symm.trans h)
    · have ends : (Decision.firstAnswer (t.subtypeWithin unchecked · sub sup)
          (t.subtypeBudget sub sup)).isSome = true := by
        refine Decision.firstAnswer_isSome short ?_
        rw [h, Option.isSome_some]
      obtain ⟨r, found⟩ := Option.isSome_iff_exists.mp ends
      obtain ⟨m, answer⟩ := Decision.exists_of_firstAnswer found
      have one := t.subtypeWithin_mono unchecked (Nat.le_max_left m n) answer
      have other := t.subtypeWithin_mono unchecked (Nat.le_max_right m n) h
      rw [found, Option.getD_some]
      exact Option.some.inj (one.symm.trans other)

/-- A subtype is decided to be one within some number of steps. -/
theorem exists_subtypeWithin (h : t.isSubtypeIn unchecked sub sup = true) :
    ∃ n, t.subtypeWithin unchecked n sub sup = some true := by
  unfold isSubtypeIn at h
  split at h
  · rename_i answer
    exact ⟨_, h ▸ answer⟩
  · cases answer : Decision.firstAnswer (t.subtypeWithin unchecked · sub sup)
        (t.subtypeBudget sub sup) with
    | none => exact absurd h (by simp [answer])
    | some r =>
      rw [answer, Option.getD_some] at h
      exact Decision.exists_of_firstAnswer (h ▸ answer)

/-- A subtype is one that is decided to be one within some number of steps. -/
theorem isSubtypeIn_iff :
    t.isSubtypeIn unchecked sub sup = true ↔
      ∃ n, t.subtypeWithin unchecked n sub sup = some true :=
  ⟨exists_subtypeWithin, fun ⟨_, h⟩ => isSubtypeIn_of_subtypeWithin h⟩

/-- What a search for a view says is the view. -/
theorem asSuper?_eq (acyclic : t.Acyclic) (supers : t.ClassSupertypes) {name target : String}
    {args : List JavaType} {view : Option JavaType}
    (h : t.asSuperWithin n (.declared name args) target = some view) :
    t.asSuper? (.declared name args) target = view := by
  have ends := acyclic.asSuperWithin_isSome supers
    (t.size_lt_viewBudget (.declared name args)) name args target
  obtain ⟨found, within⟩ := Option.isSome_iff_exists.mp ends
  let budget := t.viewBudget (.declared name args)
  have one := t.asSuperWithin_mono (Nat.le_max_left n budget) h
  have other := t.asSuperWithin_mono (Nat.le_max_right n budget) within
  rw [asSuper?, within, Option.join_some]
  exact Option.some.inj (other.symm.trans one)

/-- A subtype without unchecked conversion is one with it. -/
theorem isSubtypeUnchecked_of_isSubtype (h : t.isSubtype sub sup = true) :
    t.isSubtypeUnchecked sub sup = true := by
  obtain ⟨n, answer⟩ := isSubtypeIn_iff.mp h
  exact isSubtypeIn_iff.mpr ⟨n, subtypeWithin_unchecked answer⟩

/-- A class type is seen as every class that its class inherits from. -/
theorem exists_asSuper? (acyclic : t.Acyclic) (supers : t.ClassSupertypes) {name target : String}
    (way : t.Inherits name target) (args : List JavaType) :
    ∃ v, t.asSuper? (.declared name args) target = some v ∧
      ∀ n, t.size < n → t.asSuperWithin n (.declared name args) target = some (some v) := by
  have ends := acyclic.asSuperWithin_isSome supers (Nat.lt_succ_self t.size) name args target
  obtain ⟨v, found⟩ := exists_view_of_inherits ends way
  have enough : ∀ n, t.size < n → t.asSuperWithin n (.declared name args) target = some (some v) :=
    fun n hn => t.asSuperWithin_mono hn found
  refine ⟨v, ?_, enough⟩
  rw [asSuper?, enough _ (t.size_lt_viewBudget _)]
  rfl

/-- A class type is seen as its own class. -/
theorem asSuper?_self (acyclic : t.Acyclic) (supers : t.ClassSupertypes) (name : String)
    (args : List JavaType) :
    t.asSuper? (.declared name args) name = some (.declared name args) := by
  refine asSuper?_eq (n := 1) acyclic supers ?_
  rw [asSuperWithin, if_pos rfl]

/-- Every class type but that of the root class is seen as the root class without arguments. -/
theorem asSuper?_root (acyclic : t.Acyclic) (supers : t.ClassSupertypes) {name : String}
    (proper : name ≠ JavaType.objectName) (args : List JavaType) :
    t.asSuper? (.declared name args) JavaType.objectName = some .object := by
  refine asSuper?_eq (n := 1) acyclic supers ?_
  rw [asSuperWithin, if_neg proper, if_pos rfl]

/-- The view of a class type as a class other than the root class is a type of the class at the end
of a chain. -/
theorem exists_chain_of_asSuper? (supers : t.ClassSupertypes) {name target : String}
    {args : List JavaType} {v : JavaType} (proper : target ≠ JavaType.objectName)
    (seen : t.asSuper? (.declared name args) target = some v) :
    ∃ vs, v = .declared target vs ∧ t.Chain (.declared name args) (.declared target vs) :=
  exists_chain_of_asSuperWithin supers proper (Option.join_eq_some_iff.mp seen)

end ClassTable

end JavaRefactor
