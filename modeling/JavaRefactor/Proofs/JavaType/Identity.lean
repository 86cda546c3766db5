import JavaRefactor.JavaType.Substitution
import Mathlib.Logic.Relation

/-!
# Identity of types is an equivalence

Two types are the same when they agree node by node up to the bounds of type variables.  This
is an equivalence relation: reflexive (`JavaType.isSame_refl`), symmetric
(`JavaType.isSame_comm`) and transitive (`JavaType.isSame_trans`).  Types that are the same are
equal if each type variable has the same bounds wherever it stands in the two, bounds left out
(`JavaType.eq_of_isSame_of_parts`).
-/

namespace JavaRefactor

namespace JavaType

mutual

/-- It does not matter in which order two types are compared. -/
theorem isSame_comm : (a b : JavaType) → a.isSame b = b.isSame a
  | .primitive _, b => by cases b <;> simp only [isSame, Bool.beq_comm]
  | .declared _ as, b => by
    cases b with
    | declared m bs => rw [isSame, isSame, isSameEach_comm as bs, Bool.beq_comm]
    | _ => simp only [isSame]
  | .array a, b => by
    cases b with
    | array b => rw [isSame, isSame, isSame_comm a b]
    | _ => simp only [isSame]
  | .var _ _ _, b => by cases b <;> simp only [isSame, Bool.beq_comm]
  | .wildcard _ x, b => by
    cases b with
    | wildcard l y => rw [isSame, isSame, isSameOption_comm x y, Bool.beq_comm]
    | _ => simp only [isSame]
  | .method as a, b => by
    cases b with
    | method bs b => rw [isSame, isSame, isSameEach_comm as bs, isSame_comm a b]
    | _ => simp only [isSame]
  | .generic _ a, b => by
    cases b with
    | generic ws b => rw [isSame, isSame, isSame_comm a b, Bool.beq_comm]
    | _ => simp only [isSame]
  | .unknown, b => by cases b <;> simp only [isSame]

theorem isSameEach_comm : (as bs : List JavaType) → isSameEach as bs = isSameEach bs as
  | [], bs => by cases bs <;> simp only [isSameEach]
  | a :: as, bs => by
    cases bs with
    | nil => simp only [isSameEach]
    | cons b bs => rw [isSameEach, isSameEach, isSame_comm a b, isSameEach_comm as bs]

theorem isSameOption_comm : (x y : Option JavaType) → isSameOption x y = isSameOption y x
  | none, y => by cases y <;> simp only [isSameOption]
  | some a, y => by
    cases y with
    | none => simp only [isSameOption]
    | some b => rw [isSameOption, isSameOption, isSame_comm a b]

end

mutual

/-- Two types that are both the same as a third are the same. -/
theorem isSame_trans : (a b c : JavaType) → a.isSame b = true → b.isSame c = true →
    a.isSame c = true
  | .primitive _, b, c, h, h' => by
    cases b <;> cases c <;> simp_all [isSame]
  | .declared _ as, b, c, h, h' => by
    cases b <;> cases c <;> simp only [isSame, Bool.and_eq_true, beq_iff_eq, Bool.false_eq_true]
      at h h' ⊢
    exact ⟨h.1.trans h'.1, isSameEach_trans as _ _ h.2 h'.2⟩
  | .array a, b, c, h, h' => by
    cases b <;> cases c <;> simp only [isSame, Bool.false_eq_true] at h h' ⊢
    exact isSame_trans a _ _ h h'
  | .var _ _ _, b, c, h, h' => by
    cases b <;> cases c <;> simp_all [isSame]
  | .wildcard _ x, b, c, h, h' => by
    cases b <;> cases c <;> simp only [isSame, Bool.and_eq_true, beq_iff_eq, Bool.false_eq_true]
      at h h' ⊢
    exact ⟨h.1.trans h'.1, isSameOption_trans x _ _ h.2 h'.2⟩
  | .method as a, b, c, h, h' => by
    cases b <;> cases c <;> simp only [isSame, Bool.and_eq_true, Bool.false_eq_true] at h h' ⊢
    exact ⟨isSameEach_trans as _ _ h.1 h'.1, isSame_trans a _ _ h.2 h'.2⟩
  | .generic _ a, b, c, h, h' => by
    cases b <;> cases c <;> simp only [isSame, Bool.and_eq_true, beq_iff_eq, Bool.false_eq_true]
      at h h' ⊢
    exact ⟨h.1.trans h'.1, isSame_trans a _ _ h.2 h'.2⟩
  | .unknown, b, c, h, h' => by
    cases b <;> cases c <;> simp_all [isSame]

theorem isSameEach_trans : (as bs cs : List JavaType) → isSameEach as bs = true →
    isSameEach bs cs = true → isSameEach as cs = true
  | [], bs, cs, h, h' => by
    cases bs <;> cases cs <;> simp_all [isSameEach]
  | a :: as, bs, cs, h, h' => by
    cases bs <;> cases cs <;> simp only [isSameEach, Bool.and_eq_true, Bool.false_eq_true] at h h' ⊢
    exact ⟨isSame_trans a _ _ h.1 h'.1, isSameEach_trans as _ _ h.2 h'.2⟩

theorem isSameOption_trans : (x y z : Option JavaType) → isSameOption x y = true →
    isSameOption y z = true → isSameOption x z = true
  | none, y, z, h, h' => by
    cases y <;> cases z <;> simp_all [isSameOption]
  | some a, y, z, h, h' => by
    cases y <;> cases z <;> simp only [isSameOption, Bool.false_eq_true] at h h' ⊢
    exact isSame_trans a _ _ h h'

end

/-! ### Equality -/

/-- The types that a type is made of; the bounds of a type variable are no parts of it. -/
def parts : JavaType → List JavaType
  | .declared _ args => args
  | .array element => [element]
  | .wildcard _ bound => bound.toList
  | .method params ret => ret :: params
  | .generic _ signature => [signature]
  | .primitive _ | .var _ _ _ | .unknown => []

/-- A type is made of another, or is the other. -/
def HasPart : JavaType → JavaType → Prop := Relation.ReflTransGen fun t x => x ∈ t.parts

section Parts

variable {P Q : JavaType → Prop}

mutual

/-- Two types that are the same are equal if the variables of one have the bounds that they have in
the other. -/
theorem eq_of_isSame_of_parts (hP : ∀ t, P t → ∀ x ∈ t.parts, P x)
    (hQ : ∀ t, Q t → ∀ x ∈ t.parts, Q x)
    (vars : ∀ name u l u' l', P (.var name u l) → Q (.var name u' l') → u = u' ∧ l = l') :
    (a b : JavaType) → P a → Q b → a.isSame b = true → a = b
  | .primitive _, b, _, _, same => by
    cases b with
    | primitive _ => rw [beq_iff_eq.mp same]
    | _ => exact absurd same Bool.false_ne_true
  | .declared _ args, b, ha, hb, same => by
    cases b with
    | declared _ bs =>
      rw [isSame, Bool.and_eq_true, beq_iff_eq] at same
      rw [same.1, eq_of_isSameEach_of_parts hP hQ vars args bs (hP _ ha) (hQ _ hb) same.2]
    | _ => exact absurd same Bool.false_ne_true
  | .array a, b, ha, hb, same => by
    cases b with
    | array b =>
      have inner := eq_of_isSame_of_parts hP hQ vars a b (hP _ ha a List.mem_cons_self)
        (hQ _ hb b List.mem_cons_self) same
      rw [inner]
    | _ => exact absurd same Bool.false_ne_true
  | .var name u l, b, ha, hb, same => by
    cases b with
    | var other u' l' =>
      obtain rfl : name = other := beq_iff_eq.mp same
      -- `isSame` goes by the name alone
      obtain ⟨rfl, rfl⟩ := vars name u l u' l' ha hb
      rfl
    | _ => exact absurd same Bool.false_ne_true
  | .wildcard _ x, b, ha, hb, same => by
    cases b with
    | wildcard _ y =>
      rw [isSame, Bool.and_eq_true, beq_iff_eq] at same
      rw [same.1, eq_of_isSameOption_of_parts hP hQ vars x y
        (fun t ht => hP _ ha t (Option.mem_toList.mpr ht))
        (fun t ht => hQ _ hb t (Option.mem_toList.mpr ht)) same.2]
    | _ => exact absurd same Bool.false_ne_true
  | .method as a, b, ha, hb, same => by
    cases b with
    | method bs b =>
      rw [isSame, Bool.and_eq_true] at same
      rw [eq_of_isSameEach_of_parts hP hQ vars as bs
          (fun t ht => hP _ ha t (List.mem_cons_of_mem a ht))
          (fun t ht => hQ _ hb t (List.mem_cons_of_mem b ht)) same.1,
        eq_of_isSame_of_parts hP hQ vars a b (hP _ ha a List.mem_cons_self)
          (hQ _ hb b List.mem_cons_self) same.2]
    | _ => exact absurd same Bool.false_ne_true
  | .generic _ a, b, ha, hb, same => by
    cases b with
    | generic _ b =>
      rw [isSame, Bool.and_eq_true, beq_iff_eq] at same
      rw [same.1, eq_of_isSame_of_parts hP hQ vars a b (hP _ ha a List.mem_cons_self)
        (hQ _ hb b List.mem_cons_self) same.2]
    | _ => exact absurd same Bool.false_ne_true
  | .unknown, b, _, _, same => by
    cases b with
    | unknown => rfl
    | _ => exact absurd same Bool.false_ne_true

theorem eq_of_isSameEach_of_parts (hP : ∀ t, P t → ∀ x ∈ t.parts, P x)
    (hQ : ∀ t, Q t → ∀ x ∈ t.parts, Q x)
    (vars : ∀ name u l u' l', P (.var name u l) → Q (.var name u' l') → u = u' ∧ l = l') :
    (as bs : List JavaType) → (∀ t ∈ as, P t) → (∀ t ∈ bs, Q t) → isSameEach as bs = true → as = bs
  | [], bs, _, _, same => by
    cases bs with
    | nil => rfl
    | cons _ _ => exact absurd same Bool.false_ne_true
  | a :: as, bs, ha, hb, same => by
    cases bs with
    | nil => exact absurd same Bool.false_ne_true
    | cons b bs =>
      rw [isSameEach, Bool.and_eq_true] at same
      obtain ⟨here, others⟩ := List.forall_mem_cons.mp ha
      obtain ⟨here', others'⟩ := List.forall_mem_cons.mp hb
      rw [eq_of_isSame_of_parts hP hQ vars a b here here' same.1,
        eq_of_isSameEach_of_parts hP hQ vars as bs others others' same.2]

theorem eq_of_isSameOption_of_parts (hP : ∀ t, P t → ∀ x ∈ t.parts, P x)
    (hQ : ∀ t, Q t → ∀ x ∈ t.parts, Q x)
    (vars : ∀ name u l u' l', P (.var name u l) → Q (.var name u' l') → u = u' ∧ l = l') :
    (x y : Option JavaType) → (∀ t, x = some t → P t) → (∀ t, y = some t → Q t) →
      isSameOption x y = true → x = y
  | none, y, _, _, same => by
    cases y with
    | none => rfl
    | some _ => exact absurd same Bool.false_ne_true
  | some a, y, ha, hb, same => by
    cases y with
    | none => exact absurd same Bool.false_ne_true
    | some b =>
      rw [eq_of_isSame_of_parts hP hQ vars a b (ha a rfl) (hb b rfl) same]

end

end Parts

end JavaType

end JavaRefactor
