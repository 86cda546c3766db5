import JavaRefactor.Proofs.Hierarchy.Forms
import JavaRefactor.Proofs.Hierarchy.MergedView
import JavaRefactor.Proofs.JavaType.Identity

/-!
# The least upper bound is an upper bound

The bound of references is reached by going into arrays and up the bounds of type variables
(`ClassTable.lubReferences_bound`).  `ClassTable.exists_lub_joins` puts this together with
the widening and the boxing of primitive types.
-/

namespace JavaRefactor

/-! ### Members -/

namespace JavaType

/-- A type of values: not `void`, not a type of methods, and known. -/
def isValue : JavaType → Bool
  | .primitive .void | .method _ _ | .generic _ _ | .unknown => false
  | _ => true

/-- References are values. -/
theorem isValue_of_isReference {t : JavaType} (h : t.isReference = true) : t.isValue = true := by
  cases t with
  | primitive k => cases k <;> first | rfl | exact absurd h Bool.false_ne_true
  | method _ _ | generic _ _ | unknown => exact absurd h Bool.false_ne_true
  | _ => rfl

/-- References are not primitive. -/
theorem not_isPrimitive_of_isReference {t : JavaType} (h : t.isReference = true) :
    t.isPrimitive = false := by
  cases t with
  | primitive k => cases k <;> first | rfl | exact absurd h Bool.false_ne_true
  | _ => rfl

/-- A type of values is a reference, or a primitive type that has a wrapper. -/
theorem isReference_or_boxed {t : JavaType} (h : t.isValue = true) :
    t.isReference = true ∨ t.isPrimitive = true ∧ ∃ name, t.boxed? = some (.ofClass name) := by
  cases t with
  | primitive k =>
    cases k with
    | void => exact absurd h Bool.false_ne_true
    | null => exact .inl rfl
    | _ => exact .inr ⟨rfl, _, rfl⟩
  | method _ _ | generic _ _ | unknown => exact absurd h Bool.false_ne_true
  | _ => exact .inl rfl

/-- A reference is no primitive type that is boxed. -/
theorem boxed?_of_isReference {t : JavaType} (h : t.isReference = true) : t.boxed? = none := by
  cases t with
  | primitive k => cases k <;> first | rfl | exact absurd h Bool.false_ne_true
  | _ => rfl

/-- The only type of `null` is the null type. -/
theorem eq_null {t : JavaType} (h : t.isNull = true) : t = .primitive .null := by
  cases t with
  | primitive k => cases k <;> first | rfl | exact absurd h Bool.false_ne_true
  | _ => exact absurd h Bool.false_ne_true

/-- An array type has an element type. -/
theorem exists_eq_array {t : JavaType} (h : t.isArray = true) : ∃ e, t = .array e := by
  cases t with
  | array e => exact ⟨e, rfl⟩
  | _ => exact absurd h Bool.false_ne_true

/-- The elements of the array types among some types. -/
theorem mem_elements {types : List JavaType} {e : JavaType} :
    e ∈ types.filterMap element? ↔ .array e ∈ types := by
  rw [List.mem_filterMap]
  constructor
  · rintro ⟨t, ht, element⟩
    cases t with
    | array a => exact Option.some.inj element ▸ ht
    | _ => exact absurd element (by simp [element?])
  · exact fun h => ⟨_, h, rfl⟩

/-- A member is a type of the list, or the wrapper of one. -/
theorem mem_boundMembers {types : List JavaType} {m : JavaType} :
    m ∈ boundMembers types ↔ ∃ s ∈ types, s.isNull = false ∧ s.boxed?.getD s = m := by
  simp [boundMembers, and_assoc]

/-- The members of types of values are references. -/
theorem isReference_of_mem_boundMembers {types : List JavaType}
    (values : ∀ s ∈ types, s.isValue = true) {m : JavaType} (hm : m ∈ boundMembers types) :
    m.isReference = true := by
  obtain ⟨s, hs, -, rfl⟩ := mem_boundMembers.mp hm
  rcases isReference_or_boxed (values s hs) with reference | ⟨-, name, boxed⟩
  · rw [boxed?_of_isReference reference]
    exact reference
  · rw [boxed]
    rfl

/-- The members of types that fit, fit. -/
theorem fitsArity_of_mem_boundMembers {arity : String → Nat} {types : List JavaType}
    (fits : ∀ s ∈ types, s.FitsArity arity) {m : JavaType} (hm : m ∈ boundMembers types) :
    m.FitsArity arity := by
  obtain ⟨s, hs, -, rfl⟩ := mem_boundMembers.mp hm
  cases boxed : s.boxed? with
  | none => exact fits s hs
  | some w =>
    cases s with
    | primitive k =>
      obtain ⟨name, -, rfl⟩ := Option.map_eq_some_iff.mp boxed
      exact .inl rfl
    | _ => exact absurd boxed (by simp [boxed?])

end JavaType

namespace ClassTable

variable {t : ClassTable} {arity : String → Nat}

/-! ### The bound of references -/

/-- A type is above a reference: the decision finds it a subtype in its unchecked form, and a
class type in the checked form, too, unless it sees the bound as a raw type. -/
structure IsBoundOf (t : ClassTable) (bound m : JavaType) : Prop where
  unchecked : ∀ n, t.size + m.size + 2 ≤ n → t.subtypeWithin true n m bound = some true
  checked : m.isDeclared = true →
    t.subtypeWithin false (t.size + 2) m bound = some true ∨ t.SeesRaw m bound

/-- A type is above a reference if both forms of the decision find so in one step. -/
theorem isBoundOf_of_step {bound m : JavaType}
    (h : ∀ unchecked n, t.subtypeWithin unchecked (n + 1) m bound = some true) :
    t.IsBoundOf bound m where
  unchecked n enough := by
    obtain ⟨k, rfl⟩ : ∃ k, n = k + 1 := ⟨n - 1, by omega⟩
    exact h true k
  checked _ := .inl (h false _)

/-- A type is above the references that it is the same as. -/
theorem isBoundOf_of_isSame {bound m : JavaType} (same : m.isSame bound = true) :
    t.IsBoundOf bound m :=
  isBoundOf_of_step fun _ _ => subtypeWithin_of_isSame same

/-- The root class is above all references. -/
theorem isBoundOf_object {m : JavaType} (reference : m.isReference = true) :
    t.IsBoundOf .object m :=
  isBoundOf_of_step fun _ _ => subtypeWithin_root rfl reference

/-- What is above the bound of a type variable is above the variable. -/
theorem IsBoundOf.of_upperBound {bound : JavaType}
    (shape : bound.isArray = true ∨ bound.isDeclared = true) :
    (m : JavaType) → t.IsBoundOf bound m.upperBound → t.IsBoundOf bound m
  | .var name upper lower, h => by
    have above := of_upperBound shape upper h
    refine ⟨fun n enough => ?_, fun declared => absurd declared Bool.false_ne_true⟩
    rw [JavaType.size] at enough
    obtain ⟨k, rfl⟩ : ∃ k, n = k + 1 := ⟨n - 1, by omega⟩
    exact subtypeWithin_var shape (above.unchecked k (by omega))
  | .primitive _, h | .declared _ _, h | .array _, h | .wildcard _ _, h | .method _ _, h
  | .generic _ _, h | .unknown, h => h

/-- What is above the elements of an array is, as an array, above the array. -/
theorem isBoundOf_array {a b : JavaType} (ha : a.isReference = true) (hb : b.isReference = true)
    (h : ∀ n, t.size + a.size + 2 ≤ n → t.subtypeWithin true n a b = some true) :
    t.IsBoundOf (.array b) (.array a) where
  unchecked n enough := by
    rw [JavaType.size] at enough
    obtain ⟨k, rfl⟩ : ∃ k, n = k + 1 := ⟨n - 1, by omega⟩
    exact subtypeWithin_array (JavaType.not_isPrimitive_of_isReference ha)
      (JavaType.not_isPrimitive_of_isReference hb) (h k (by omega))
  checked declared := absurd declared Bool.false_ne_true

/-- The bound of class types is above each of them. -/
theorem isBoundOf_lubClasses (acyclic : t.Acyclic) (correct : t.ArityCorrect arity)
    {types : List JavaType} (class_types : ∀ s ∈ types, s.isDeclared = true)
    (fits : ∀ s ∈ types, s.FitsArity arity) {s : JavaType} (hs : s ∈ types) :
    t.IsBoundOf (t.lubClasses types) s := by
  have below {n : Nat} (enough : t.size < n) :=
    subtypeWithin_lubClasses correct class_types fits acyclic hs enough
  refine ⟨fun n enough => ?_, fun _ => (below (Nat.lt_succ_self _)).2⟩
  obtain ⟨k, rfl⟩ : ∃ k, n = k + 1 := ⟨n - 1, by omega⟩
  have fewer : t.size < k := by omega
  exact (below fewer).1

/-- The bound of some references is, as an array, above the arrays of them. -/
theorem isBoundOf_array_of_mem {bound e : JavaType} {elements : List JavaType}
    (references : ∀ e ∈ elements, e.isReference = true) (reference : bound.isReference = true)
    (above : ∀ m ∈ JavaType.boundMembers elements, t.IsBoundOf bound m) (he : e ∈ elements) :
    t.IsBoundOf (.array bound) (.array e) := by
  refine isBoundOf_array (references e he) reference fun n enough => ?_
  obtain ⟨k, rfl⟩ : ∃ k, n = k + 1 := ⟨n - 1, by omega⟩
  cases null : e.isNull with
  | true =>
    obtain rfl := JavaType.eq_null null
    exact subtypeWithin_null reference
  | false =>
    have unboxed : e.boxed?.getD e = e := by
      rw [JavaType.boxed?_of_isReference (references e he), Option.getD_none]
    have member := JavaType.mem_boundMembers.mpr ⟨e, he, null, unboxed⟩
    exact (above e member).unchecked _ enough

/-- The bound of types of values is a reference, and it is above every member. -/
theorem lubReferences_bound (acyclic : t.Acyclic) (correct : t.ArityCorrect arity)
    (types : List JavaType) (values : ∀ s ∈ types, s.isValue = true)
    (fits : ∀ s ∈ types, s.FitsArity arity) :
    (t.lubReferences types).isReference = true ∧
      ∀ m ∈ JavaType.boundMembers types, t.IsBoundOf (t.lubReferences types) m := by
  fun_induction lubReferences t types with
  | case1 types none_left => exact ⟨rfl, none_left ▸ fun _ hm => absurd hm List.not_mem_nil⟩
  | case2 types first rest members same =>
    have reference := JavaType.isReference_of_mem_boundMembers values
      (members ▸ List.mem_cons_self : first ∈ _)
    exact ⟨reference, fun m hm => isBoundOf_of_isSame (List.all_eq_true.mp same m (members ▸ hm))⟩
  | case3 types first rest members _ bounds arrays elements references ih =>
    have references := List.all_eq_true.mp references
    have elements_fit : ∀ e ∈ elements, e.FitsArity arity := by
      intro e he
      obtain ⟨m, hm, bound⟩ := List.mem_map.mp (JavaType.mem_elements.mp he)
      have fit := (JavaType.fitsArity_of_mem_boundMembers fits (members ▸ hm)).upperBound
      rw [bound] at fit
      exact fit
    obtain ⟨reference, above⟩ :=
      ih (fun e he => JavaType.isValue_of_isReference (references e he)) elements_fit
    -- the array of the bound of the elements is above an array if that bound is above its elements
    refine ⟨rfl, fun m hm => IsBoundOf.of_upperBound (.inl rfl) m ?_⟩
    have hm : m.upperBound ∈ bounds := List.mem_map_of_mem (members ▸ hm)
    obtain ⟨e, element⟩ := JavaType.exists_eq_array (List.all_eq_true.mp arrays _ hm)
    have he : e ∈ elements := JavaType.mem_elements.mpr (element ▸ hm)
    rw [element]
    exact isBoundOf_array_of_mem references reference above he
  | case4 types first rest members _ bounds arrays elements mixed =>
    exact ⟨rfl, fun m hm => isBoundOf_object (JavaType.isReference_of_mem_boundMembers values hm)⟩
  | case5 types first rest members _ bounds _ class_types =>
    have bounds_fit : ∀ b ∈ bounds, b.FitsArity arity := by
      intro b hb
      obtain ⟨m, hm, rfl⟩ := List.mem_map.mp hb
      exact (JavaType.fitsArity_of_mem_boundMembers fits (members ▸ hm)).upperBound
    have class_types := List.all_eq_true.mp class_types
    obtain ⟨args, bound⟩ := t.exists_lubClasses_eq bounds
    have declared : (t.lubClasses bounds).isDeclared = true := by
      rw [bound]
      rfl
    refine ⟨?_, fun m hm => IsBoundOf.of_upperBound (.inr declared) m ?_⟩
    · rw [bound]
      rfl
    · exact isBoundOf_lubClasses acyclic correct class_types bounds_fit
        (List.mem_map_of_mem (members ▸ hm))
  | case6 types first rest members _ bounds _ other =>
    exact ⟨rfl, fun m hm => isBoundOf_object (JavaType.isReference_of_mem_boundMembers values hm)⟩

/-! ### The bound of any types -/

/-- Subtypes in the unchecked form can be assigned, with or without boxing. -/
theorem isAssignable_of_isSubtypeUnchecked {s target : JavaType} {boxing : Bool}
    (h : t.isSubtypeUnchecked s target = true) : t.isAssignable s target boxing = true := by
  unfold isAssignable
  rw [if_pos h]

/-- A type whose wrapper is a subtype can be assigned with boxing. -/
theorem isAssignable_of_boxed {s target wrapper : JavaType} (boxed : s.boxed? = some wrapper)
    (h : t.isSubtype wrapper target = true) : t.isAssignable s target true = true := by
  unfold isAssignable
  split
  · rfl
  · rw [(JavaType.exists_of_boxed? boxed).1, boxed]
    exact h

/-- A type converts to a bound: by assignment with boxing, or by boxing to a class that sees the
bound as a raw type, and an unchecked conversion. -/
def Joins (t : ClassTable) (s bound : JavaType) : Prop :=
  t.isAssignable s bound true = true ∨
    ∃ wrapper, s.boxed? = some wrapper ∧ t.SeesRaw wrapper bound ∧
      t.isSubtypeUnchecked wrapper bound = true

/-- Subtypes in the unchecked form convert to the bound. -/
theorem joins_of_isSubtypeUnchecked {s bound : JavaType}
    (h : t.isSubtypeUnchecked s bound = true) : t.Joins s bound :=
  .inl (isAssignable_of_isSubtypeUnchecked h)

/-- What is below a type is a subtype of it in the unchecked form. -/
theorem IsBoundOf.isSubtypeUnchecked {bound m : JavaType} (h : t.IsBoundOf bound m) :
    t.isSubtypeUnchecked m bound = true :=
  isSubtypeIn_of_subtypeWithin (h.unchecked _ (Nat.le_refl _))

/-- A primitive type converts to what is above its wrapper. -/
theorem IsBoundOf.joins_of_boxed {bound s : JavaType} {name : String}
    (h : t.IsBoundOf bound (.ofClass name)) (boxed : s.boxed? = some (.ofClass name)) :
    t.Joins s bound := by
  rcases h.checked rfl with checked | raw
  · exact .inl (isAssignable_of_boxed boxed (isSubtypeIn_of_subtypeWithin checked))
  · exact .inr ⟨_, boxed, raw, h.isSubtypeUnchecked⟩

/-- All types of a list convert to the bound of references, and its references are subtypes. -/
theorem joins_lubReferences (acyclic : t.Acyclic) (correct : t.ArityCorrect arity)
    {types : List JavaType} (values : ∀ s ∈ types, s.isValue = true)
    (fits : ∀ s ∈ types, s.FitsArity arity) {s : JavaType} (hs : s ∈ types) :
    t.Joins s (t.lubReferences types) ∧
      (s.isReference = true → t.isSubtypeUnchecked s (t.lubReferences types) = true) := by
  obtain ⟨reference, above⟩ := lubReferences_bound acyclic correct types values fits
  cases null : s.isNull with
  | true =>
    obtain rfl := JavaType.eq_null null
    have below : t.isSubtypeUnchecked (.primitive .null) (t.lubReferences types) = true :=
      (isBoundOf_of_step fun _ _ => subtypeWithin_null reference).isSubtypeUnchecked
    exact ⟨joins_of_isSubtypeUnchecked below, fun _ => below⟩
  | false =>
    have above := above _ (JavaType.mem_boundMembers.mpr ⟨s, hs, null, rfl⟩)
    rcases JavaType.isReference_or_boxed (values s hs) with reference | ⟨primitive, name, boxed⟩
    · rw [JavaType.boxed?_of_isReference reference] at above
      have below := above.isSubtypeUnchecked
      exact ⟨joins_of_isSubtypeUnchecked below, fun _ => below⟩
    · rw [boxed] at above
      refine ⟨above.joins_of_boxed boxed, fun reference => ?_⟩
      exact absurd primitive (by simp [JavaType.not_isPrimitive_of_isReference reference])

/-- Primitive types convert to the widest of them, or to the bound of their wrappers. -/
theorem joins_of_primitive (acyclic : t.Acyclic) (correct : t.ArityCorrect arity)
    {types : List JavaType} (values : ∀ s ∈ types, s.isValue = true) {s : JavaType}
    (hs : s ∈ types) (primitive : s.isPrimitive = true) :
    t.Joins s (t.lubReferences (types.filterMap JavaType.boxed?)) := by
  have wrappers : ∀ w ∈ types.filterMap JavaType.boxed?, ∃ name, w = .ofClass name := by
    intro w hw
    obtain ⟨p, -, boxed⟩ := List.mem_filterMap.mp hw
    exact (JavaType.exists_of_boxed? boxed).2
  rcases JavaType.isReference_or_boxed (values s hs) with reference | ⟨-, name, boxed⟩
  · exact absurd primitive (by simp [JavaType.not_isPrimitive_of_isReference reference])
  · have hw : .ofClass name ∈ types.filterMap JavaType.boxed? :=
      List.mem_filterMap.mpr ⟨s, hs, boxed⟩
    obtain ⟨-, above⟩ := lubReferences_bound acyclic correct (types.filterMap JavaType.boxed?)
      (fun w hw => by obtain ⟨_, rfl⟩ := wrappers w hw; rfl)
      (fun w hw => by obtain ⟨_, rfl⟩ := wrappers w hw; exact .inl rfl)
    exact (above _ (JavaType.mem_boundMembers.mpr ⟨_, hw, rfl, rfl⟩)).joins_of_boxed boxed

/-- Primitive types are subtypes of those that they widen to. -/
theorem isSubtypeUnchecked_of_widensTo {s widest : JavaType} (primitive : s.isPrimitive = true)
    (widens : s.widensTo widest = true) : t.isSubtypeUnchecked s widest = true := by
  cases s with
  | primitive p =>
    cases widest with
    | primitive q =>
      have numeric : p ≠ .null := by
        rintro rfl
        exact absurd primitive Bool.false_ne_true
      exact (isBoundOf_of_step fun _ _ =>
        subtypeWithin_primitive numeric widens).isSubtypeUnchecked
    | _ => exact absurd widens Bool.false_ne_true
  | _ => exact absurd primitive Bool.false_ne_true

/-- Types of values have a bound that all of them convert to, by subtyping if all of them are
references. -/
theorem exists_lub_joins (acyclic : t.Acyclic) (correct : t.ArityCorrect arity)
    {types : List JavaType} (nonempty : types ≠ []) (values : ∀ s ∈ types, s.isValue = true)
    (fits : ∀ s ∈ types, s.FitsArity arity) :
    ∃ bound, t.lub types = some bound ∧ (∀ s ∈ types, t.Joins s bound) ∧
      ((∀ s ∈ types, s.isReference = true) → ∀ s ∈ types, t.isSubtypeUnchecked s bound = true) := by
  obtain ⟨first, rest, rfl⟩ := List.exists_cons_of_ne_nil nonempty
  unfold lub
  simp only
  split
  · rename_i same
    have below : ∀ s ∈ first :: rest, t.isSubtypeUnchecked s first = true := by
      intro s hs
      obtain rfl := beq_iff_eq.mp (List.all_eq_true.mp same s hs)
      exact (isBoundOf_of_isSame (JavaType.isSame_refl s)).isSubtypeUnchecked
    exact ⟨first, rfl, fun s hs => joins_of_isSubtypeUnchecked (below s hs), fun _ => below⟩
  · split
    · rename_i primitive
      have primitive := List.all_eq_true.mp primitive
      have mixed : ¬ ∀ s ∈ first :: rest, s.isReference = true := by
        intro references
        have reference := references first List.mem_cons_self
        exact absurd (primitive first List.mem_cons_self)
          (by simp [JavaType.not_isPrimitive_of_isReference reference])
      split
      · rename_i widest found
        have widens : (first :: rest).all (fun p => p.widensTo widest) = true :=
          List.find?_some (p := fun c => (first :: rest).all fun p => p.widensTo c) found
        have widens := List.all_eq_true.mp widens
        exact ⟨widest, rfl, fun s hs => joins_of_isSubtypeUnchecked
          (isSubtypeUnchecked_of_widensTo (primitive s hs) (widens s hs)), fun h => absurd h mixed⟩
      · exact ⟨_, rfl, fun s hs => joins_of_primitive acyclic correct values hs (primitive s hs),
          fun h => absurd h mixed⟩
    · have joins := fun s hs => joins_lubReferences (s := s) acyclic correct values fits hs
      exact ⟨_, rfl, fun s hs => (joins s hs).1,
        fun references s hs => (joins s hs).2 (references s hs)⟩

/-! ### Minimality -/

/-- The bound of references that are not all the same and lead to class types is the bound of
these class types. -/
theorem lubReferences_eq_lubClasses {types : List JavaType}
    (differ : ∀ first, ∃ m ∈ JavaType.boundMembers types, m.isSame first = false)
    (class_types : ∀ m ∈ JavaType.boundMembers types, m.upperBound.isDeclared = true) :
    t.lubReferences types =
      t.lubClasses ((JavaType.boundMembers types).map JavaType.upperBound) := by
  have declared : ∀ b ∈ (JavaType.boundMembers types).map JavaType.upperBound,
      b.isDeclared = true ∧ b.isArray = false := by
    intro b hb
    obtain ⟨m, hm, rfl⟩ := List.mem_map.mp hb
    refine ⟨class_types m hm, ?_⟩
    have here := class_types m hm
    cases h : m.upperBound with
    | declared _ _ => rfl
    | _ => exact absurd here (by rw [h]; exact Bool.false_ne_true)
  fun_cases lubReferences t types with
  | case1 empty =>
    obtain ⟨m, hm, -⟩ := differ .object
    exact absurd (empty ▸ hm) List.not_mem_nil
  | case2 first rest members same =>
    obtain ⟨m, hm, other⟩ := differ first
    have same := List.all_eq_true.mp same m (members ▸ hm)
    exact absurd (other.symm.trans same) Bool.false_ne_true
  | case3 first rest members _ bounds arrays | case4 first rest members _ bounds arrays =>
    have here : first.upperBound ∈ bounds := List.mem_cons_self
    have array := List.all_eq_true.mp arrays _ here
    rw [members] at declared
    exact absurd ((declared _ here).2.symm.trans array) Bool.false_ne_true
  | case5 first rest members _ bounds _ _ => rw [members]
  | case6 first rest members _ bounds _ other =>
    rw [members] at declared
    exact absurd (List.all_eq_true.mpr fun b hb => (declared b hb).1) other

/-- The bound of types that are not all primitive, whose members are not all the same and lead
to class types, is the bound of these class types. -/
theorem lub_eq_lubClasses {types : List JavaType}
    (mixed : ∃ s ∈ types, s.isPrimitive = false)
    (differ : ∃ a ∈ JavaType.boundMembers types, ∃ b ∈ JavaType.boundMembers types,
      a.isSame b = false)
    (class_types : ∀ m ∈ JavaType.boundMembers types, m.upperBound.isDeclared = true) :
    t.lub types = some (t.lubClasses ((JavaType.boundMembers types).map JavaType.upperBound)) := by
  have differ (first : JavaType) : ∃ m ∈ JavaType.boundMembers types, m.isSame first = false := by
    obtain ⟨a, ha, b, hb, other⟩ := differ
    by_contra same
    have same : ∀ m ∈ JavaType.boundMembers types, m.isSame first = true := fun m hm =>
      Bool.eq_true_of_not_eq_false fun other => same ⟨m, hm, other⟩
    have back := JavaType.isSame_comm first b ▸ same b hb
    exact absurd (other.symm.trans (JavaType.isSame_trans a first b (same a ha) back))
      Bool.false_ne_true
  obtain ⟨s, hs, other⟩ := mixed
  obtain ⟨first, rest, rfl⟩ := List.exists_cons_of_ne_nil (List.ne_nil_of_mem hs)
  unfold lub
  simp only
  split
  · rename_i equal
    obtain ⟨m, hm, other⟩ := differ (first.boxed?.getD first)
    obtain ⟨s, hs, -, rfl⟩ := JavaType.mem_boundMembers.mp hm
    obtain rfl := beq_iff_eq.mp (List.all_eq_true.mp equal s hs)
    exact absurd (other.symm.trans (JavaType.isSame_refl _)) Bool.false_ne_true
  · split
    · rename_i primitive
      have here := List.all_eq_true.mp primitive s hs
      exact absurd (other.symm.trans here) Bool.false_ne_true
    · rw [lubReferences_eq_lubClasses differ class_types]

/-- Every nonempty list of types of values that fit their arities has a bound that all of them
convert to; all references are subtypes of it if there are only references.  If the root class
has no supertypes, and the members of the list are not all primitive, not all the same, and lead
to class types, then the bound is a type of a class above all members, and no other class above
all members is a subtype of it. -/
theorem lub_isLeast (acyclic : t.Acyclic) (correct : t.ArityCorrect arity)
    {types : List JavaType} (nonempty : types ≠ []) (values : ∀ s ∈ types, s.isValue = true)
    (fits : ∀ s ∈ types, s.FitsArity arity) :
    ∃ bound, t.lub types = some bound ∧
      (∀ s ∈ types, t.isAssignable s bound true = true ∨
        ∃ wrapper, s.boxed? = some wrapper ∧ t.SeesRaw wrapper bound ∧
          t.isSubtypeUnchecked wrapper bound = true) ∧
      ((∀ s ∈ types, s.isReference = true) →
        ∀ s ∈ types, t.isSubtypeUnchecked s bound = true) ∧
      (t.supertypeNames JavaType.objectName = [] →
        (∃ s ∈ types, s.isPrimitive = false) →
        (∃ a ∈ JavaType.boundMembers types, ∃ b ∈ JavaType.boundMembers types,
          a.isSame b = false) →
        (∀ m ∈ JavaType.boundMembers types, m.upperBound.isDeclared = true) →
        ∃ c args, bound = .declared c args ∧
          (∀ m ∈ JavaType.boundMembers types, t.IsAbove c m.upperBound) ∧
          ∀ d, (∀ m ∈ JavaType.boundMembers types, t.IsAbove d m.upperBound) → d ≠ c →
            t.isSubtype (.ofClass d) (.ofClass c) = false) := by
  obtain ⟨bound, found, joins, below⟩ :=
    exists_lub_joins acyclic correct nonempty values fits
  refine ⟨bound, found, joins, below, fun root mixed differ class_types => ?_⟩
  have chosen := lub_eq_lubClasses (t := t) mixed differ class_types
  obtain rfl := Option.some.inj (found.symm.trans chosen)
  have bounds_declared : ∀ b ∈ (JavaType.boundMembers types).map JavaType.upperBound,
      b.isDeclared = true := List.forall_mem_map.mpr class_types
  obtain ⟨args, named⟩ := t.exists_lubClasses_eq ((JavaType.boundMembers types).map .upperBound)
  refine ⟨_, args, named, fun m hm => ?_, fun d above other => ?_⟩
  · exact isAbove_commonClass bounds_declared _ (List.mem_map_of_mem hm)
  · obtain ⟨a, ha, -⟩ := differ
    refine commonClass_minimal acyclic correct.classes root
      (List.ne_nil_of_mem (List.mem_map_of_mem ha)) (fun b hb => ?_) other
    obtain ⟨m, hm, rfl⟩ := List.mem_map.mp hb
    exact above m hm

/-! ### Some bounds -/

/-- Two wrapper classes whose values are ordered, `Integer` by a given type. -/
def wrappers (ordering : JavaType) : ClassTable :=
  ⟨[⟨"java.lang.Comparable", ["T"], [], true⟩,
    ⟨"java.lang.Boolean", [],
      [.declared "java.lang.Comparable" [.ofClass "java.lang.Boolean"]], false⟩,
    ⟨"java.lang.Integer", [], [ordering], false⟩]⟩

/-- The arities of a table in which only `Comparable` takes an argument. -/
def wrapperArity (name : String) : Nat := if name = "java.lang.Comparable" then 1 else 0

/-- The table of two wrapper classes is acyclic, whatever orders them. -/
theorem acyclic_wrappers (args : List JavaType) :
    (wrappers (.declared "java.lang.Comparable" args)).Acyclic :=
  acyclic_of_rank (fun name => if name = "java.lang.Comparable" then 0 else 1) (by
    simp [wrappers, JavaType.className?])

/-- The table of two wrapper classes is correct in its arities, if the ordering type is. -/
theorem arityCorrect_wrappers {args : List JavaType} (fits : args = [] ∨ args.length = 1) :
    (wrappers (.declared "java.lang.Comparable" args)).ArityCorrect wrapperArity :=
  arityCorrect_of_forall_mem (by simpa [wrappers, wrapperArity] using fits)

/-- A table in which the root class has a supertype, and two classes below that. -/
def aboveRoot : ClassTable :=
  ⟨[⟨JavaType.objectName, [], [.ofClass "Top"], false⟩, ⟨"Top", [], [], true⟩,
    ⟨"A", [], [.ofClass "Top"], false⟩, ⟨"B", [], [.ofClass "Top"], false⟩]⟩

/-- The table in which the root class has a supertype is acyclic. -/
theorem acyclic_aboveRoot : aboveRoot.Acyclic :=
  acyclic_of_rank (fun name => if name = "Top" then 0 else 1) (by
    simp [aboveRoot, JavaType.className?, JavaType.objectName])

/-- The table in which the root class has a supertype is correct in its arities. -/
theorem arityCorrect_aboveRoot : aboveRoot.ArityCorrect fun _ => 0 :=
  arityCorrect_of_forall_mem (by simp [aboveRoot])

/-- Boxing is followed by checked subtyping only, so `int` does not convert to the bound of
`boolean` and `int` where `Integer` sees it as a raw type; and where the root class has a
supertype, that is a subtype of the bound and above both of its members. -/
theorem lub_raw_aboveRoot :
    ((wrappers (.ofClass "java.lang.Comparable")).Acyclic ∧
      (wrappers (.ofClass "java.lang.Comparable")).ArityCorrect wrapperArity ∧
      (wrappers (.ofClass "java.lang.Comparable")).lub [.primitive .boolean, .primitive .int] =
        some (.declared "java.lang.Comparable" [.wildcard .unbounded none]) ∧
      (wrappers (.ofClass "java.lang.Comparable")).isAssignable (.primitive .int)
        (.declared "java.lang.Comparable" [.wildcard .unbounded none]) true = false) ∧
    (aboveRoot.Acyclic ∧ aboveRoot.ArityCorrect (fun _ => 0) ∧
      aboveRoot.lub [.ofClass "A", .ofClass "B"] = some .object ∧
      "Top" ∈ aboveRoot.erasedSupertypes (.ofClass "A") ∧
      "Top" ∈ aboveRoot.erasedSupertypes (.ofClass "B") ∧
      aboveRoot.isSubtype (.ofClass "Top") .object = true) := by
  refine ⟨⟨acyclic_wrappers [], arityCorrect_wrappers (.inl rfl), ?_, ?_⟩,
    acyclic_aboveRoot, arityCorrect_aboveRoot, ?_, ?_, ?_, ?_⟩
  all_goals decide +kernel

/-- The bound of a primitive type and a reference: both are ordered, each among its own
values. -/
theorem lub_isLeast_wrappers :
    ∃ bound, (wrappers (.declared "java.lang.Comparable" [.ofClass "java.lang.Integer"])).lub
        [.ofClass "java.lang.Boolean", .primitive .int] = some bound ∧
      ∃ c args, bound = .declared c args ∧
        ∀ d, (∀ m ∈ JavaType.boundMembers [.ofClass "java.lang.Boolean", .primitive .int],
          (wrappers (.declared "java.lang.Comparable" [.ofClass "java.lang.Integer"])).IsAbove d
            m.upperBound) → d ≠ c →
          (wrappers (.declared "java.lang.Comparable" [.ofClass "java.lang.Integer"])).isSubtype
            (.ofClass d) (.ofClass c) = false := by
  obtain ⟨bound, found, -, -, least⟩ :=
    lub_isLeast (acyclic_wrappers [.ofClass "java.lang.Integer"])
      (arityCorrect_wrappers (.inr rfl))
      (List.cons_ne_nil (JavaType.ofClass "java.lang.Boolean") [.primitive .int])
      (by decide) (by simp [JavaType.FitsArity])
  obtain ⟨c, args, named, -, minimal⟩ := least (by decide +kernel) (by decide) (by decide +kernel)
    (by decide)
  exact ⟨bound, found, c, args, named, minimal⟩

end ClassTable

end JavaRefactor
