import JavaRefactor.Proofs.Hierarchy.Instances

/-!
# The decision of subtyping ends

A step of the decision goes from two types to the elements of two arrays, or from a type argument
and an argument of a view to the types that they are about.  The view can be larger than the type,
but then it is a rigid type of the table.  Against a rigid type the decision goes into arrays
only (`ClassTable.Regular.subtypeWithin_isSome_of_isRigid`), so rigid types do not count:
the sizes of the others fall at each step (`ClassTable.Regular.subtypeWithin_isSome`), and
the budget of the decision is large enough (`ClassTable.Regular.subtypeBudget_isSome`).
-/

namespace JavaRefactor

namespace JavaType

/-- Whether a type is a wildcard. -/
def isWildcard : JavaType → Bool
  | .wildcard _ _ => true
  | _ => false

/-- The type that a type argument is about: the bound of a wildcard, or the argument itself. -/
def core? : JavaType → Option JavaType
  | .wildcard _ bound => bound
  | t => some t

/-- The number of nodes of a type that is not rigid. -/
def extent (arity : String → Nat) (t : JavaType) : Nat := if t.isRigid arity then 0 else t.size

variable {arity : String → Nat} {arg x : JavaType}

/-- A rigid type does not count. -/
theorem extent_of_isRigid {t : JavaType} (h : t.isRigid arity = true) : t.extent arity = 0 := by
  rw [extent, if_pos h]

/-- A type counts no more than its nodes. -/
theorem extent_le_size (t : JavaType) : t.extent arity ≤ t.size := by
  unfold extent
  split
  · exact Nat.zero_le _
  · exact Nat.le_refl _

/-- The type that a ground argument is about is ground, and no larger than the argument. -/
theorem core_of_isGround (ground : arg.isGround arity true = true) (h : arg.core? = some x) :
    x.isGround arity false = true ∧ x.size ≤ arg.size ∧ (arg.isRigid arity = true → x = arg) ∧
      (arg.isWildcard = true → x.size < arg.size) := by
  cases arg with
  | wildcard kind bound =>
    obtain rfl : bound = some x := h
    rw [isGround, Bool.true_and] at ground
    have smaller : x.size < (wildcard kind (some x)).size := by
      rw [size, sizeOption]
      omega
    refine ⟨ground, Nat.le_of_lt smaller, fun rigid => ?_, fun _ => smaller⟩
    exact absurd rigid Bool.false_ne_true
  | _ =>
    obtain rfl := Option.some.inj h
    exact ⟨ground, Nat.le_refl _, fun _ => rfl, fun wild => absurd wild Bool.false_ne_true⟩

/-- A rigid type is no wildcard. -/
theorem not_isWildcard_of_isRigid {t : JavaType} (h : t.isRigid arity = true) :
    t.isWildcard = false := by
  cases t with
  | wildcard _ _ => exact absurd h Bool.false_ne_true
  | _ => rfl

end JavaType

/-! ### One step -/

/-- The comparison of type arguments ends if it does for the types that they are about, which a
lower bound takes the other way round. -/
theorem containsArgument_isSome {below : JavaType → JavaType → Option Bool}
    {formal actual : JavaType}
    (upper : ∀ x y, formal = .wildcard .upper (some y) → actual.core? = some x →
      (below x y).isSome = true)
    (lower : ∀ x y, formal = .wildcard .lower (some y) → actual.core? = some x →
      (below y x).isSome = true) :
    (containsArgument below formal actual).isSome = true := by
  cases formal with
  | wildcard kind bound =>
    cases bound with
    | none => cases kind <;> rfl
    | some y =>
      cases actual with
      | wildcard kind' bound' =>
        cases bound' with
        | none => cases kind <;> cases kind' <;> rfl
        | some x =>
          cases kind <;> cases kind' <;>
            first | rfl | exact upper x y rfl rfl | exact lower x y rfl rfl
      | _ => cases kind <;> first | rfl | exact upper _ y rfl rfl | exact lower _ y rfl rfl
  | _ => rfl

/-- The decisions of all pairs end if that of each pair does. -/
theorem allPairs_isSome {decision : JavaType → JavaType → Option Bool}
    {ps : List (JavaType × JavaType)} (h : ∀ p ∈ ps, (decision p.1 p.2).isSome = true) :
    (allPairs decision ps).isSome = true := by
  induction ps with
  | nil => rfl
  | cons p ps ih =>
    obtain ⟨here, rest⟩ := List.forall_mem_cons.mp h
    obtain ⟨a, b⟩ := p
    unfold allPairs
    split
    · exact ih rest
    · exact here

/-- A view is compared to the arguments of its class in the end if all arguments are. -/
theorem viewFits_isSome {below : JavaType → JavaType → Option Bool} {unchecked : Bool}
    {args : List JavaType} {view : Option JavaType}
    (h : ∀ name vs, view = some (.declared name vs) → ∀ p ∈ args.zip vs,
      (containsArgument below p.1 p.2).isSome = true) :
    (viewFits below unchecked args view).isSome = true := by
  unfold viewFits
  split
  · split
    · rfl
    · split
      · rfl
      · split
        · exact allPairs_isSome (h _ _ rfl)
        · rfl
  · rfl

namespace ClassTable

variable {t : ClassTable} {arity : String → Nat} {unchecked : Bool} {n : Nat}

/-- The decision on ground types ends if it does for elements of arrays, for views, and for
arguments of views. -/
theorem subtypeWithin_succ_isSome {a b : JavaType} (ha : a.isGround arity false = true)
    (hb : b.isGround arity false = true)
    (elements : ∀ x y, a = .array x → b = .array y →
      (t.subtypeWithin unchecked n x y).isSome = true)
    (views : ∀ name args target, a = .declared name args →
      (t.asSuperWithin (n + 1) (.declared name args) target).isSome = true)
    (arguments : ∀ name args target sups c vs, a = .declared name args →
      b = .declared target sups → target ≠ JavaType.objectName →
      t.asSuperWithin (n + 1) (.declared name args) target = some (some (.declared c vs)) →
      ∀ p ∈ sups.zip vs,
        (containsArgument (t.subtypeWithin unchecked n) p.1 p.2).isSome = true) :
    (t.subtypeWithin unchecked (n + 1) a b).isSome = true := by
  unfold subtypeWithin
  split
  · rfl
  · split
    · rfl
    · rename_i proper
      -- only arrays and class types ask further questions
      cases a with
      | primitive p => cases b <;> cases p <;> rfl
      | array x =>
        cases b with
        | primitive _ => rfl
        | array y =>
          change Option.isSome (if (x.isPrimitive || y.isPrimitive) = true then _ else _) = true
          split
          · rfl
          · exact elements x y rfl rfl
        | declared target sups => rfl
        | _ => exact absurd hb Bool.false_ne_true
      | declared name args =>
        cases b with
        | primitive _ => rfl
        | array y => rfl
        | declared target sups =>
          change ((t.asSuperWithin (n + 1) (.declared name args) target).bind _).isSome = true
          obtain ⟨view, found⟩ := Option.isSome_iff_exists.mp (views name args target rfl)
          rw [found]
          refine viewFits_isSome fun c vs same =>
            arguments name args target sups c vs rfl rfl (fun root => proper ?_) (same ▸ found)
          rw [root]
          rfl
        | _ => exact absurd hb Bool.false_ne_true
      | _ => exact absurd ha Bool.false_ne_true

/-- What an argument of a view is about is ground, and no larger than the type as far as it is not
rigid. -/
theorem core_of_view {name : String} {args : List JavaType} {v x : JavaType}
    (ground : (JavaType.declared name args).isGround arity false = true)
    (origin : v ∈ args ∨ v.isRigid arity = true ∧ v.size ≤ t.weight) (core : v.core? = some x) :
    x.isGround arity false = true ∧
      x.extent arity ≤ (JavaType.declared name args).extent arity ∧
        (x.size ≤ t.weight ∨ x.size ≤ (JavaType.declared name args).size) := by
  rcases origin with hv | ⟨rigid, few⟩
  · have shrinks : v.size < (JavaType.declared name args).size := JavaType.size_lt_of_mem hv
    obtain ⟨gx, size_le, same, -⟩ :=
      JavaType.core_of_isGround ((JavaType.isGround_declared.mp ground).2 v hv) core
    refine ⟨gx, ?_, .inr (by omega)⟩
    by_cases closed : (JavaType.declared name args).isRigid arity = true
    · have rigid := (JavaType.isRigid_declared.mp closed).2 v hv
      rw [same rigid, JavaType.extent_of_isRigid rigid]
      exact Nat.zero_le _
    · have whole : (JavaType.declared name args).extent arity = _ := if_neg closed
      have part : x.extent arity ≤ x.size := x.extent_le_size
      omega
  · obtain ⟨gx, -, same, -⟩ := JavaType.core_of_isGround (JavaType.isGround_of_isRigid v rigid) core
    obtain rfl := same rigid
    rw [JavaType.extent_of_isRigid rigid]
    exact ⟨gx, Nat.zero_le _, .inl few⟩

namespace Regular

variable (regular : t.Regular arity)
include regular

/-- The views of a class type with all its arguments have arguments of the type, or rigid ones
of the table. -/
theorem args_of_asSuperWithin {m : Nat} {name target c : String} {args vs : List JavaType}
    (full : args.length = arity name) (proper : target ≠ JavaType.objectName)
    (found : t.asSuperWithin m (.declared name args) target = some (some (.declared c vs))) :
    c = target ∧ t.Chain (.declared name args) (.declared target vs) ∧
      vs.length = arity target ∧
        ∀ v ∈ vs, v ∈ args ∨ v.isRigid arity = true ∧ v.size ≤ t.weight := by
  obtain ⟨_, same, chain⟩ := exists_chain_of_asSuperWithin regular.classSupertypes proper found
  obtain ⟨rfl, rfl⟩ := JavaType.declared.inj same
  obtain ⟨length, each⟩ := regular.args_of_chain full chain
  exact ⟨rfl, chain, length, each⟩

/-- Against a rigid type, the decision takes as many steps as there are classes and nodes of
the type. -/
theorem subtypeWithin_isSome_of_isRigid {a b : JavaType} (ha : a.isGround arity false = true)
    (hb : b.isRigid arity = true) (enough : t.size + b.size < n) :
    (t.subtypeWithin unchecked n a b).isSome = true := by
  induction n generalizing a b with
  | zero => exact absurd enough (Nat.not_lt_zero _)
  | succ n ih =>
    refine subtypeWithin_succ_isSome ha (JavaType.isGround_of_isRigid b hb) ?_ ?_ ?_
    · rintro x y rfl rfl
      rw [JavaType.size] at enough
      exact ih ha hb (by omega)
    · rintro name args target rfl
      exact regular.acyclic.asSuperWithin_isSome regular.classSupertypes (by omega) name args target
    · rintro name args target sups c vs rfl rfl - - p hp
      have closed := (JavaType.isRigid_declared.mp hb).2 p.1 (List.of_mem_zip hp).1
      have plain := JavaType.not_isWildcard_of_isRigid closed
      refine containsArgument_isSome (fun _ _ wild => ?_) (fun _ _ wild => ?_)
      all_goals
        rw [wild] at plain
        exact absurd plain.symm Bool.false_ne_true

/-- The decision takes as many steps as there are classes and nodes of the larger type, and of
the types that are not rigid. -/
theorem subtypeWithin_isSome {bound : Nat} (heavy : t.weight ≤ bound) {a b : JavaType}
    (ha : a.isGround arity false = true) (hb : b.isGround arity false = true)
    (small : a.size ≤ bound ∧ b.size ≤ bound)
    (enough : a.extent arity + b.extent arity + t.size + bound < n) :
    (t.subtypeWithin unchecked n a b).isSome = true := by
  induction n generalizing a b with
  | zero => exact absurd enough (Nat.not_lt_zero _)
  | succ n ih =>
    -- A rigid type above is decided in steps of its own.  Any other one is counted in full, and
    -- what its arguments are about is smaller.
    by_cases closed : b.isRigid arity = true
    · exact regular.subtypeWithin_isSome_of_isRigid ha closed (by omega)
    have whole : b.extent arity = b.size := if_neg closed
    refine subtypeWithin_succ_isSome ha hb ?_ ?_ ?_
    · rintro x y rfl rfl
      have hx : x.extent arity ≤ x.array.extent arity := by
        unfold JavaType.extent
        rw [JavaType.isRigid, JavaType.size]
        split <;> omega
      have hy : y.extent arity ≤ y.size := y.extent_le_size
      rw [JavaType.size] at whole small
      rw [JavaType.size] at small
      exact ih ha hb ⟨by omega, by omega⟩ (by omega)
    · rintro name args target rfl
      exact regular.acyclic.asSuperWithin_isSome regular.classSupertypes (by omega) name args target
    · rintro name args target sups c vs rfl rfl proper found p hp
      obtain ⟨full, ground⟩ := JavaType.isGround_declared.mp ha
      obtain ⟨-, ground'⟩ := JavaType.isGround_declared.mp hb
      obtain ⟨-, -, -, each⟩ := regular.args_of_asSuperWithin full proper found
      obtain ⟨hsup, hv⟩ := List.of_mem_zip hp
      have shrinks : p.1.size < (JavaType.declared target sups).size :=
        JavaType.size_lt_of_mem hsup
      have ends (kind : WildcardKind) (x y : JavaType) (wild : p.1 = .wildcard kind (some y))
          (core : p.2.core? = some x) : (t.subtypeWithin unchecked n x y).isSome = true ∧
            (t.subtypeWithin unchecked n y x).isSome = true := by
        obtain ⟨gx, extent_le, size_le⟩ := core_of_view ha (each _ hv) core
        have about : p.1.core? = some y := by rw [wild]; rfl
        obtain ⟨gy, -, -, smaller⟩ := JavaType.core_of_isGround (ground' _ hsup) about
        have smaller := smaller (by rw [wild]; rfl)
        have extent_le' : y.extent arity ≤ y.size := y.extent_le_size
        exact ⟨ih gx gy ⟨by omega, by omega⟩ (by omega), ih gy gx ⟨by omega, by omega⟩ (by omega)⟩
      exact containsArgument_isSome (fun x y wild core => (ends .upper x y wild core).1)
        fun x y wild core => (ends .lower x y wild core).2

/-- Subtyping of ground types is decided within the budget. -/
theorem subtypeBudget_isSome {a b : JavaType} (ha : a.isGround arity false = true)
    (hb : b.isGround arity false = true) :
    (t.subtypeWithin unchecked (t.subtypeBudget a b) a b).isSome = true := by
  have heavy : t.weight ≤ t.weight + a.size + b.size := by omega
  refine regular.subtypeWithin_isSome heavy ha hb ⟨by omega, by omega⟩ ?_
  have few := t.size_le_weight
  have left : a.extent arity ≤ a.size := a.extent_le_size
  have right : b.extent arity ≤ b.size := b.extent_le_size
  calc a.extent arity + b.extent arity + t.size + (t.weight + a.size + b.size)
      < 2 * (t.weight + a.size + b.size + 2) := by omega
    _ ≤ 2 ^ (t.weight + a.size + b.size + 2) := by
      rw [Nat.pow_succ, Nat.mul_comm]
      exact Nat.mul_le_mul_right 2 Nat.lt_two_pow_self
    _ ≤ t.subtypeBudget a b := Nat.pow_le_pow_left (Nat.le_add_left _ _) _

end Regular

end ClassTable

end JavaRefactor
