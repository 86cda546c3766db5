import JavaRefactor.Proofs.JavaType.Identity
import JavaRefactor.Proofs.JavaType.Occurrence

/-!
# Ground types

A ground type holds no type variables, and each of its class types has as many arguments as the
class takes; an argument may be a wildcard.  A rigid type is a ground type without wildcards:
nothing in it depends on where it stands.
-/

namespace JavaRefactor

namespace JavaType

/-! ### Rigid and ground types -/

mutual

/-- Whether a type is built from primitive types, arrays, and class types with all their
arguments, and holds no wildcard. -/
def isRigid (arity : String → Nat) : JavaType → Bool
  | .primitive _ => true
  | .declared name args => args.length == arity name && areRigid arity args
  | .array element => isRigid arity element
  | _ => false

/-- Whether all of some types are rigid. -/
def areRigid (arity : String → Nat) : List JavaType → Bool
  | [] => true
  | t :: ts => isRigid arity t && areRigid arity ts

end

mutual

/-- Whether a type is built from primitive types, arrays, and class types with all their
arguments, which may be wildcards; an argument may be a wildcard itself. -/
def isGround (arity : String → Nat) (argument : Bool) : JavaType → Bool
  | .primitive _ => true
  | .declared name args => args.length == arity name && areGround arity args
  | .array element => isGround arity false element
  | .wildcard _ bound => argument && isGroundBound arity bound
  | _ => false

/-- Whether all of some type arguments are ground. -/
def areGround (arity : String → Nat) : List JavaType → Bool
  | [] => true
  | t :: ts => isGround arity true t && areGround arity ts

/-- Whether the bound of a wildcard, if there is one, is ground. -/
def isGroundBound (arity : String → Nat) : Option JavaType → Bool
  | none => true
  | some t => isGround arity false t

end

variable {arity : String → Nat}

/-- Some types are rigid if each of them is. -/
theorem areRigid_iff {ts : List JavaType} :
    areRigid arity ts = true ↔ ∀ t ∈ ts, t.isRigid arity = true := by
  induction ts with
  | nil => simp [areRigid]
  | cons t ts ih => simp [areRigid, ih]

/-- Some type arguments are ground if each of them is. -/
theorem areGround_iff {ts : List JavaType} :
    areGround arity ts = true ↔ ∀ t ∈ ts, t.isGround arity true = true := by
  induction ts with
  | nil => simp [areGround]
  | cons t ts ih => simp [areGround, ih]

/-- A class type is rigid if it has all its arguments and these are rigid. -/
theorem isRigid_declared {name : String} {args : List JavaType} :
    (declared name args).isRigid arity = true ↔
      args.length = arity name ∧ ∀ a ∈ args, a.isRigid arity = true := by
  rw [isRigid, Bool.and_eq_true, beq_iff_eq, areRigid_iff]

/-- A class type is ground if it has all its arguments and these are ground. -/
theorem isGround_declared {argument : Bool} {name : String} {args : List JavaType} :
    (declared name args).isGround arity argument = true ↔
      args.length = arity name ∧ ∀ a ∈ args, a.isGround arity true = true := by
  rw [isGround, Bool.and_eq_true, beq_iff_eq, areGround_iff]

mutual

/-- A rigid type is ground. -/
theorem isGround_of_isRigid {argument : Bool} :
    (t : JavaType) → t.isRigid arity = true → t.isGround arity argument = true
  | .primitive _, _ => rfl
  | .declared name args, h => by
    rw [isRigid, Bool.and_eq_true] at h
    rw [isGround, h.1, areGround_of_areRigid args h.2]
    rfl
  | .array element, h => by
    have inner : element.isGround arity false = true := isGround_of_isRigid element h
    exact inner
  | .var _ _ _, h | .wildcard _ _, h | .method _ _, h | .generic _ _, h | .unknown, h =>
    absurd h Bool.false_ne_true

theorem areGround_of_areRigid :
    (ts : List JavaType) → areRigid arity ts = true → areGround arity ts = true
  | [], _ => rfl
  | t :: ts, h => by
    rw [areRigid, Bool.and_eq_true] at h
    rw [areGround, isGround_of_isRigid t h.1, areGround_of_areRigid ts h.2]
    rfl

end

mutual

/-- No variable occurs in a rigid type. -/
theorem occurs_of_isRigid {x : String} :
    (t : JavaType) → t.isRigid arity = true → t.occurs x = false
  | .primitive _, _ => rfl
  | .declared name args, h => by
    rw [isRigid, Bool.and_eq_true] at h
    exact occursAny_of_areRigid args h.2
  | .array element, h => occurs_of_isRigid element h
  | .var _ _ _, h | .wildcard _ _, h | .method _ _, h | .generic _ _, h | .unknown, h =>
    absurd h Bool.false_ne_true

theorem occursAny_of_areRigid {x : String} :
    (ts : List JavaType) → areRigid arity ts = true → occursAny x ts = false
  | [], _ => rfl
  | t :: ts, h => by
    rw [areRigid, Bool.and_eq_true] at h
    rw [occursAny, occurs_of_isRigid t h.1, occursAny_of_areRigid ts h.2]
    rfl

end

mutual

/-- A ground type mentions no variable. -/
theorem mentions_of_isGround {argument : Bool} {vars : List String} :
    (t : JavaType) → t.isGround arity argument = true → t.mentions vars = false
  | .primitive _, _ => rfl
  | .declared name args, h => by
    rw [isGround, Bool.and_eq_true] at h
    exact mentionsAny_of_areGround args h.2
  | .array element, h => by
    have inner : element.isGround arity false = true := h
    exact mentions_of_isGround element inner
  | .wildcard _ bound, h => by
    rw [isGround, Bool.and_eq_true] at h
    exact mentionsOption_of_isGroundBound bound h.2
  | .var _ _ _, h | .method _ _, h | .generic _ _, h | .unknown, h =>
    absurd h Bool.false_ne_true

theorem mentionsAny_of_areGround {vars : List String} :
    (ts : List JavaType) → areGround arity ts = true → mentionsAny vars ts = false
  | [], _ => rfl
  | t :: ts, h => by
    rw [areGround, Bool.and_eq_true] at h
    rw [mentionsAny, mentions_of_isGround t h.1, mentionsAny_of_areGround ts h.2]
    rfl

theorem mentionsOption_of_isGroundBound {vars : List String} :
    (x : Option JavaType) → isGroundBound arity x = true → mentionsOption vars x = false
  | none, _ => rfl
  | some t, h => by
    have inner : t.isGround arity false = true := h
    exact mentions_of_isGround t inner

end

/-- No type variable occurs in a ground type. -/
theorem variableFree_of_isGround {argument : Bool} {t : JavaType}
    (h : t.isGround arity argument = true) : t.VariableFree :=
  fun _ => mentions_of_isGround t h

/-- Substitution leaves rigid types alone. -/
theorem substitute_of_isRigid {t : JavaType} (h : t.isRigid arity = true) (map : Substitution) :
    t.substitute map = t :=
  substitute_eq_self t fun _ _ => occurs_of_isRigid t h

/-! ### Size -/

/-- No type is larger than all of some types that it is among. -/
theorem size_le_sizeList {t : JavaType} {ts : List JavaType} (h : t ∈ ts) :
    t.size ≤ sizeList ts := by
  induction ts with
  | nil => exact absurd h List.not_mem_nil
  | cons u us ih =>
    rw [sizeList]
    rcases List.mem_cons.mp h with rfl | h
    · exact Nat.le_add_right _ _
    · exact Nat.le_add_left_of_le (ih h)

/-- A type argument is smaller than the type. -/
theorem size_lt_of_mem {name : String} {args : List JavaType} {a : JavaType} (h : a ∈ args) :
    a.size < (declared name args).size := by
  rw [size, Nat.add_comm]
  exact Nat.lt_succ_of_le (size_le_sizeList h)

/-- The bound of a wildcard is smaller than the wildcard. -/
theorem size_lt_wildcard {kind : WildcardKind} {bound : JavaType} :
    bound.size < (wildcard kind (some bound)).size :=
  Nat.lt_add_of_pos_left Nat.one_pos

/-! ### Identity of ground types -/

/-- The parts of a ground type are ground. -/
theorem exists_isGround_of_mem_parts {t x : JavaType} {argument : Bool}
    (ground : t.isGround arity argument = true) (h : x ∈ t.parts) :
    ∃ argument, x.isGround arity argument = true := by
  cases t with
  | declared name args => exact ⟨true, (isGround_declared.mp ground).2 x h⟩
  | array element =>
    obtain rfl := List.mem_singleton.mp h
    exact ⟨false, ground⟩
  | wildcard kind bound =>
    obtain rfl := Option.mem_toList.mp h
    exact ⟨false, (Bool.and_eq_true_iff.mp ground).2⟩
  | primitive _ => exact absurd h List.not_mem_nil
  | _ => exact absurd ground Bool.false_ne_true

/-- Whatever a ground type is made of is ground. -/
theorem exists_isGround_of_hasPart {t x : JavaType} {argument : Bool}
    (ground : t.isGround arity argument = true) (h : t.HasPart x) :
    ∃ argument, x.isGround arity argument = true := by
  induction h with
  | refl => exact ⟨argument, ground⟩
  | tail _ hx ih =>
    obtain ⟨argument, inner⟩ := ih
    exact exists_isGround_of_mem_parts inner hx

/-- Ground types that are the same are equal. -/
theorem eq_of_isSame {argument : Bool} (a b : JavaType) (ground : a.isGround arity argument = true)
    (same : a.isSame b = true) : a = b := by
  refine eq_of_isSame_of_parts (P := fun t => ∃ argument, t.isGround arity argument = true)
    (Q := fun _ => True) ?_ (fun _ _ _ _ => trivial) ?_ a b ⟨argument, ground⟩ trivial same
  · rintro t ⟨argument, ground⟩ x hx
    exact exists_isGround_of_mem_parts ground hx
  · rintro name u l u' l' ⟨argument, ground⟩
    exact absurd ground Bool.false_ne_true

end JavaType

end JavaRefactor
