import JavaRefactor.Proofs.Hierarchy.LeastUpperBound
import JavaRefactor.Proofs.Hierarchy.Unchecked

/-!
# Conversions of a bound

Where the bound of some types converts to a declared type, so do many of the types themselves
(`ClassTable.CarriesOver`).  In a regular table this is transitivity of subtyping: types that lead
to ground types have a ground bound (`ClassTable.lubReferences_ground`), and unchecked conversion
plays no part between these.  It is not so where the bound is boxed or unboxed on its way to the
declared type, which does not mean that the other types can be, and where a type has been boxed on
its way to the bound although boxing is not allowed.
-/

namespace JavaRefactor

namespace JavaType

variable {arity : String → Nat}

/-- A ground type is no type variable. -/
theorem upperBound_of_isGround {s : JavaType} {argument : Bool}
    (ground : s.isGround arity argument = true) : s.upperBound = s := by
  cases s with
  | var _ _ _ => exact absurd ground Bool.false_ne_true
  | _ => rfl

/-- A ground type has all its arguments. -/
theorem fitsArity_of_isGround : (s : JavaType) → s.isGround arity false = true → s.FitsArity arity
  | .declared _ _, ground => .inr (isGround_declared.mp ground).1
  | .array element, ground => fitsArity_of_isGround element ground
  | .var _ _ _, ground => absurd ground Bool.false_ne_true
  | .primitive _, _ | .wildcard _ _, _ | .method _ _, _ | .generic _ _, _ | .unknown, _ => trivial

/-- A type variable fits if its bound does. -/
theorem fitsArity_of_upperBound : (s : JavaType) → s.upperBound.FitsArity arity → s.FitsArity arity
  | .var _ upper _, fits => fitsArity_of_upperBound upper fits
  | .primitive _, fits | .declared _ _, fits | .array _, fits | .wildcard _ _, fits
  | .method _ _, fits | .generic _ _, fits | .unknown, fits => fits

/-- A primitive type is not the null type. -/
theorem exists_eq_primitive {s : JavaType} (h : s.isPrimitive = true) :
    ∃ p, s = .primitive p ∧ p ≠ .null := by
  cases s with
  | primitive p =>
    refine ⟨p, rfl, ?_⟩
    rintro rfl
    exact absurd h Bool.false_ne_true
  | _ => exact absurd h Bool.false_ne_true

/-- Primitive types of values and their wrappers have the same members. -/
theorem boundMembers_boxed {types : List JavaType} (values : ∀ s ∈ types, s.isValue = true)
    (primitive : ∀ s ∈ types, s.isPrimitive = true) :
    boundMembers (types.filterMap boxed?) = boundMembers types := by
  induction types with
  | nil => rfl
  | cons s ss ih =>
    obtain ⟨value, values⟩ := List.forall_mem_cons.mp values
    obtain ⟨here, primitive⟩ := List.forall_mem_cons.mp primitive
    have rest := ih values primitive
    rcases isReference_or_boxed value with reference | ⟨-, name, boxed⟩
    · exact absurd here (by simp [not_isPrimitive_of_isReference reference])
    · have value : s.isNull = false := by
        cases s with
        | primitive k => cases k <;> first | rfl | exact absurd here Bool.false_ne_true
        | _ => rfl
      unfold boundMembers at rest ⊢
      rw [List.filterMap_cons_some boxed, List.filter_cons_of_pos (by rfl),
        List.filter_cons_of_pos (by rw [value]; rfl), List.map_cons, List.map_cons, rest, boxed]
      rfl

end JavaType

namespace ClassTable

variable {t : ClassTable} {arity : String → Nat}

/-! ### What the bound is -/

/-- The bound of references only depends on their members. -/
theorem lubReferences_congr {us types : List JavaType}
    (same : JavaType.boundMembers us = JavaType.boundMembers types) :
    t.lubReferences us = t.lubReferences types := by
  unfold lubReferences
  rw [same]

/-- The bound of types of values is the only type among them, or the widest of primitive types, or
the bound of references. -/
theorem lub_cases {types : List JavaType} {bound : JavaType}
    (values : ∀ s ∈ types, s.isValue = true) (found : t.lub types = some bound) :
    (∀ s ∈ types, s = bound) ∨
      (bound.isPrimitive = true ∧ ∀ s ∈ types, s.isPrimitive = true ∧ s.widensTo bound = true) ∨
      bound = t.lubReferences types := by
  cases types with
  | nil => cases found
  | cons first rest =>
    unfold lub at found
    dsimp only at found
    split at found
    · rename_i same
      obtain rfl := Option.some.inj found
      exact .inl fun s hs => beq_iff_eq.mp (List.all_eq_true.mp same s hs)
    · split at found
      · rename_i primitive
        have primitive := List.all_eq_true.mp primitive
        split at found
        · rename_i widest chosen
          obtain rfl := Option.some.inj found
          have widens := List.find?_some (p := fun c => (first :: rest).all fun p => p.widensTo c)
            chosen
          exact .inr (.inl ⟨primitive _ (List.mem_of_find?_eq_some chosen),
            fun s hs => ⟨primitive s hs, List.all_eq_true.mp widens s hs⟩⟩)
        · obtain rfl := Option.some.inj found
          exact .inr (.inr (lubReferences_congr (JavaType.boundMembers_boxed values primitive)))
      · exact .inr (.inr (Option.some.inj found).symm)

/-! ### Ground bounds -/

section Ground

variable (regular : t.Regular arity) (root : arity JavaType.objectName = 0)
include regular root

/-- A view of a ground class type is ground. -/
theorem isGround_of_asSuper? {s v : JavaType} {target : String} (class_type : s.isDeclared = true)
    (ground : s.isGround arity false = true) (seen : t.asSuper? s target = some v) :
    ∃ args, v = .declared target args ∧ v.isGround arity false = true := by
  cases s with
  | declared name args =>
    obtain ⟨full, each⟩ := JavaType.isGround_declared.mp ground
    have found := Option.join_eq_some_iff.mp seen
    rcases chain_of_asSuperWithin regular.classSupertypes found with ⟨rfl, rfl⟩ | ⟨named, chain⟩
    · refine ⟨[], rfl, JavaType.isGround_declared.mpr ⟨root.symm, fun _ h => ?_⟩⟩
      exact absurd h List.not_mem_nil
    · obtain ⟨_, vs, rfl, -⟩ := chain.inherits regular.classSupertypes
      obtain rfl := Option.some.inj named
      obtain ⟨length, origin⟩ := regular.args_of_chain full chain
      refine ⟨vs, rfl, JavaType.isGround_declared.mpr ⟨length, fun v hv => ?_⟩⟩
      rcases origin v hv with hv | ⟨rigid, -⟩
      · exact each v hv
      · exact JavaType.isGround_of_isRigid v rigid
  | _ => exact absurd class_type Bool.false_ne_true

/-- The bound of ground class types is ground. -/
theorem isGround_lubClasses {types : List JavaType} (nonempty : types ≠ [])
    (class_types : ∀ s ∈ types, s.isDeclared = true)
    (ground : ∀ s ∈ types, s.isGround arity false = true) :
    (t.lubClasses types).isGround arity false = true := by
  have views : ∀ v ∈ t.commonViews types, ∃ args, v = .declared (t.commonClass types) args ∧
      v.isGround arity false = true := by
    intro v hv
    obtain ⟨s, hs, seen⟩ := List.mem_filterMap.mp hv
    exact isGround_of_asSuper? regular root (class_types s hs) (ground s hs) seen
  cases hviews : t.commonViews types with
  | cons v vs =>
    obtain ⟨args, rfl, full⟩ := views v (hviews ▸ List.mem_cons_self)
    obtain ⟨length, each⟩ := JavaType.isGround_declared.mp full
    have merged : t.lubClasses types = .declared (t.commonClass types)
        (mergeArguments (t.commonViews types) args) := by
      unfold commonViews at hviews ⊢
      unfold lubClasses
      simp only [hviews, List.head?_cons]
    rw [merged]
    refine JavaType.isGround_declared.mpr ⟨(length_mergeArguments _ _).trans length, fun a ha => ?_⟩
    obtain ⟨i, hi, rfl⟩ := List.getElem_of_mem ha
    rcases getElem_mergeArguments (hviews ▸ List.mem_cons_self) hi with free | agree
    · rw [free]
      rfl
    · exact each _ (List.mem_of_getElem? agree)
  | nil =>
    have plain : t.lubClasses types = .ofClass (t.commonClass types) := by
      unfold commonViews at hviews
      unfold lubClasses
      simp only [hviews, List.head?_nil]
    -- every class but the root class has a view of the types below it
    have top : t.commonClass types = JavaType.objectName := by
      obtain ⟨s, hs⟩ := List.exists_mem_of_ne_nil types nonempty
      rcases isAbove_commonClass class_types s hs with top | ⟨name, args, rfl, way⟩
      · exact top
      · obtain ⟨v, seen, -⟩ := exists_asSuper? regular.acyclic regular.classSupertypes way args
        have hv : v ∈ t.commonViews types := List.mem_filterMap.mpr ⟨_, hs, seen⟩
        rw [hviews] at hv
        exact absurd hv List.not_mem_nil
    rw [plain, top]
    exact JavaType.isGround_declared.mpr ⟨root.symm, fun _ h => absurd h List.not_mem_nil⟩

/-- The bound of references that lead to ground types is `null` if there are no members, one of the
members if all are the same, or else a ground class type or array. -/
theorem lubReferences_ground (types : List JavaType)
    (ground : ∀ m ∈ JavaType.boundMembers types, m.upperBound.isGround arity false = true) :
    (JavaType.boundMembers types = [] ∧ t.lubReferences types = .primitive .null) ∨
      (t.lubReferences types ∈ JavaType.boundMembers types ∧
        ∀ m ∈ JavaType.boundMembers types, m.isSame (t.lubReferences types) = true) ∨
      ((t.lubReferences types).isGround arity false = true ∧
        ((t.lubReferences types).isArray = true ∨ (t.lubReferences types).isDeclared = true)) := by
  have object : JavaType.object.isGround arity false = true :=
    JavaType.isGround_declared.mpr ⟨root.symm, fun _ h => absurd h List.not_mem_nil⟩
  -- With the recursion of the bound, which goes into arrays.  The members are then the elements,
  -- none of which is boxed, so these are ground if the arrays are.
  fun_induction lubReferences t types with
  | case1 types none_left => exact .inl ⟨none_left, rfl⟩
  | case2 types first rest members same =>
    rw [members]
    exact .inr (.inl ⟨List.mem_cons_self, List.all_eq_true.mp same⟩)
  | case3 types first rest members _ bounds arrays elements references ih =>
    have references := List.all_eq_true.mp references
    have ground_elements : ∀ e ∈ elements, e.isGround arity false = true := by
      intro e he
      obtain ⟨m, hm, bound⟩ := List.mem_map.mp (JavaType.mem_elements.mp he)
      have here := ground m (members ▸ hm)
      rw [bound] at here
      exact here
    have element_of_member {m : JavaType} (hm : m ∈ JavaType.boundMembers elements) :
        m ∈ elements := by
      obtain ⟨e, he, -, rfl⟩ := JavaType.mem_boundMembers.mp hm
      rw [JavaType.boxed?_of_isReference (references e he)]
      exact he
    have inner : (t.lubReferences elements).isGround arity false = true := by
      have ground_members : ∀ m ∈ JavaType.boundMembers elements,
          m.upperBound.isGround arity false = true := by
        intro m hm
        have here := ground_elements m (element_of_member hm)
        rwa [JavaType.upperBound_of_isGround here]
      rcases ih ground_members with ⟨-, null⟩ | ⟨mem, -⟩ | ⟨here, -⟩
      · rw [null]
        rfl
      · exact ground_elements _ (element_of_member mem)
      · exact here
    exact .inr (.inr ⟨inner, .inl rfl⟩)
  | case4 | case6 => exact .inr (.inr ⟨object, .inr rfl⟩)
  | case5 types first rest members _ bounds _ class_types =>
    have ground_bounds : ∀ b ∈ bounds, b.isGround arity false = true := by
      intro b hb
      obtain ⟨m, hm, rfl⟩ := List.mem_map.mp hb
      exact ground m (members ▸ hm)
    have here := isGround_lubClasses regular root (List.cons_ne_nil _ _)
      (List.all_eq_true.mp class_types) ground_bounds
    obtain ⟨args, bound⟩ := t.exists_lubClasses_eq bounds
    refine .inr (.inr ⟨here, .inr ?_⟩)
    rw [bound]
    rfl

end Ground

/-! ### Through the bounds of type variables -/

section Variables

variable {unchecked : Bool} {bound : JavaType}

/-- What is below a class type or an array has its bound below it. -/
theorem exists_upperBound_below (shape : bound.isArray = true ∨ bound.isDeclared = true)
    (proper : bound.className? ≠ some JavaType.objectName) {n : Nat} :
    (s : JavaType) → t.subtypeWithin unchecked n s bound = some true →
      ∃ k, t.subtypeWithin unchecked k s.upperBound bound = some true
  | .var name upper lower, h => by
    cases n with
    | zero => exact absurd h (by simp [subtypeWithin])
    | succ n =>
      have inner : t.subtypeWithin unchecked n upper bound = some true := by
        unfold subtypeWithin at h
        cases bound with
        | declared target args => exact (if_neg proper).symm.trans h
        | array element => exact h
        | _ => rcases shape with shape | shape <;> exact absurd shape Bool.false_ne_true
      exact exists_upperBound_below shape proper upper inner
  | .primitive _, h | .declared _ _, h | .array _, h | .wildcard _ _, h | .method _ _, h
  | .generic _ _, h | .unknown, h => ⟨n, h⟩

/-- What has its bound below a class type or an array is below it. -/
theorem exists_below_of_upperBound (shape : bound.isArray = true ∨ bound.isDeclared = true)
    {n : Nat} : (s : JavaType) → t.subtypeWithin unchecked n s.upperBound bound = some true →
      ∃ k, t.subtypeWithin unchecked k s bound = some true
  | .var _ upper _, h => by
    obtain ⟨k, below⟩ := exists_below_of_upperBound shape upper h
    exact ⟨k + 1, subtypeWithin_var shape below⟩
  | .primitive _, h | .declared _ _, h | .array _, h | .wildcard _ _, h | .method _ _, h
  | .generic _ _, h | .unknown, h => ⟨n, h⟩

end Variables

/-- What is above the root class is the root class. -/
theorem Regular.root_of_below {a b : JavaType} (regular : t.Regular arity)
    (ha : a.isGround arity false = true) (hb : b.isGround arity false = true)
    (root : a.className? = some JavaType.objectName) (below : t.Below a b) :
    b.className? = some JavaType.objectName := by
  cases (regular.below_iff ha hb).mp below with
  | same => exact root
  | root _ => rfl
  | view proper chain _ =>
    obtain rfl := Option.some.inj root
    exact absurd (eq_of_chain_of_top regular List.mem_cons_self chain) proper
  | null _ | widening _ _ | array _ _ _ | arrayClass _ => cases root

/-- Types whose bound is known: there are only types of values among them, each leads to a ground
type as an instance of a class or an array, and each type variable has one bound. -/
structure HasGroundMembers (arity : String → Nat) (types : List JavaType) : Prop where
  values : ∀ s ∈ types, s.isValue = true
  ground : ∀ s ∈ types, (s.boxed?.getD s).upperBound.isGround arity false = true
  coherent : ∀ s ∈ types, ∀ u ∈ types, s.isSame u = true → s = u

namespace HasGroundMembers

variable {types : List JavaType} (h : HasGroundMembers arity types)
include h

/-- The members that a bound is made of are ground behind their variables. -/
theorem ground_of_mem {m : JavaType} (hm : m ∈ JavaType.boundMembers types) :
    m.upperBound.isGround arity false = true := by
  obtain ⟨s, hs, -, rfl⟩ := JavaType.mem_boundMembers.mp hm
  exact h.ground s hs

/-- The types of a bound fit the arities. -/
theorem fits {s : JavaType} (hs : s ∈ types) : s.FitsArity arity := by
  cases boxed : s.boxed? with
  | some wrapper =>
    cases s with
    | primitive _ => trivial
    | _ => cases boxed
  | none =>
    have here := h.ground s hs
    rw [boxed, Option.getD_none] at here
    exact JavaType.fitsArity_of_upperBound s (JavaType.fitsArity_of_isGround _ here)

/-- Members that are the same are equal. -/
theorem eq_of_isSame {m n : JavaType} (hm : m ∈ JavaType.boundMembers types)
    (hn : n ∈ JavaType.boundMembers types) (same : m.isSame n = true) : m = n := by
  obtain ⟨s, hs, -, rfl⟩ := JavaType.mem_boundMembers.mp hm
  obtain ⟨u, hu, -, rfl⟩ := JavaType.mem_boundMembers.mp hn
  -- a wrapper is ground, so what is the same is equal
  have plain_or_ground {s : JavaType} (hs : s ∈ types) :
      s.boxed?.getD s = s ∨ (s.boxed?.getD s).isGround arity false = true := by
    have here := h.ground s hs
    cases boxed : s.boxed? with
    | none => exact .inl rfl
    | some w =>
      obtain ⟨-, name, rfl⟩ := JavaType.exists_of_boxed? boxed
      rw [boxed] at here
      exact .inr here
  rcases plain_or_ground hs with plain | ground
  · rcases plain_or_ground hu with plain' | ground'
    · rw [plain, plain'] at same ⊢
      exact h.coherent s hs u hu same
    · rw [JavaType.isSame_comm] at same
      exact (JavaType.eq_of_isSame _ _ ground' same).symm
  · exact JavaType.eq_of_isSame _ _ ground same

end HasGroundMembers

/-! ### Conversions that carry over -/

/-- Why the conversion of the bound of some types to a declared type carries over to a type. -/
inductive CarriesOver (t : ClassTable) (boxing : Bool) (types : List JavaType)
    (bound declared : JavaType) : JavaType → Prop where
  /-- The type is the bound itself. -/
  | same : CarriesOver t boxing types bound declared bound
  /-- `null` can be assigned to every reference. -/
  | null : declared.isReference = true →
    CarriesOver t boxing types bound declared (.primitive .null)
  /-- Primitive types widen to the bound, and the bound to the declared type. -/
  | widening {s : JavaType} : (∀ u ∈ types, u.isValue = true) → bound.isPrimitive = true →
    declared.isPrimitive = true → CarriesOver t boxing types bound declared s
  /-- The bound is the wrapper of the type, and is unboxed again. -/
  | unboxing {s : JavaType} : s.boxed? = some bound → declared.isPrimitive = true →
    CarriesOver t boxing types bound declared s
  /-- Everything that is a reference, or can be boxed, can be assigned to the root class. -/
  | root {s : JavaType} : declared.className? = some JavaType.objectName →
    s.isReference = true ∨ boxing = true ∧ s.boxed?.isSome = true →
      CarriesOver t boxing types bound declared s
  /-- Subtyping of references is transitive. -/
  | reference {s : JavaType} {arity : String → Nat} : t.Regular arity →
    arity JavaType.objectName = 0 → HasGroundMembers arity types →
      declared.isGround arity false = true → bound.isReference = true →
        declared.isReference = true → s.isReference = true ∨ boxing = true →
          CarriesOver t boxing types bound declared s

section Conversions

variable {types : List JavaType} {s bound declared : JavaType} {boxing : Bool}

/-- Among primitive types, subtypes are those that widen. -/
theorem widensTo_of_below {p q : Primitive} (numeric : p ≠ .null) {unchecked : Bool} {n : Nat}
    (h : t.subtypeWithin unchecked n (.primitive p) (.primitive q) = some true) :
    p.widensTo q = true := by
  cases n with
  | zero => exact absurd h (by simp [subtypeWithin])
  | succ n =>
    unfold subtypeWithin at h
    split at h
    · rename_i same
      rw [beq_iff_eq.mp same, Primitive.widensTo_refl]
    · cases p with
      | null => exact absurd rfl numeric
      | _ => exact Option.some.inj h

/-- What is below a primitive type is a primitive type that widens to it. -/
theorem exists_widensTo_of_below {q : Primitive} (value : (JavaType.primitive q).isPrimitive = true)
    {unchecked : Bool} (h : t.isSubtypeIn unchecked s (.primitive q) = true) :
    ∃ p, s = .primitive p ∧ p ≠ .null ∧ p.widensTo q = true := by
  obtain ⟨n, below⟩ := isSubtypeIn_iff.mp h
  obtain ⟨p, rfl, numeric⟩ :=
    JavaType.exists_eq_primitive ((isPrimitive_eq_of_below below).trans value)
  exact ⟨p, rfl, numeric, widensTo_of_below numeric below⟩

/-- What converts to a primitive type is a primitive type that widens to it, or is unboxed to
one. -/
theorem primitive_of_isAssignable {q : Primitive}
    (value : (JavaType.primitive q).isPrimitive = true)
    (h : t.isAssignable s (.primitive q) boxing = true) :
    (∃ p, s = .primitive p ∧ p ≠ .null ∧ p.widensTo q = true) ∨
      boxing = true ∧ ∃ p, s.unboxed? = some (.primitive p) ∧ p ≠ .null ∧ p.widensTo q = true := by
  unfold isAssignable at h
  split at h
  · rename_i below
    exact .inl (exists_widensTo_of_below value below)
  · cases boxing with
    | false => exact absurd h Bool.false_ne_true
    | true =>
      change (if s.isPrimitive = true then _ else _) = true at h
      split at h
      · split at h
        · rename_i wrapper boxed
          obtain ⟨p, rfl, -⟩ := exists_widensTo_of_below value h
          obtain ⟨-, name, same⟩ := JavaType.exists_of_boxed? boxed
          cases same
        · cases h
      · split at h
        · rename_i kind unboxed
          obtain ⟨p, rfl, widens⟩ := exists_widensTo_of_below value h
          exact .inr ⟨rfl, p, unboxed, widens⟩
        · cases h

/-- A wrapper is unboxed to what it wraps. -/
theorem unboxed?_of_boxed? {wrapper : JavaType} (boxed : s.boxed? = some wrapper) :
    wrapper.unboxed? = some s := by
  cases s with
  | primitive p => cases p <;> first | (obtain rfl := Option.some.inj boxed; decide) | cases boxed
  | _ => cases boxed

/-- The bound of references is a reference. -/
theorem isReference_lubReferences (values : ∀ s ∈ types, s.isValue = true) :
    (t.lubReferences types).isReference = true := by
  fun_cases lubReferences t types with
  | case1 => rfl
  | case2 first rest members =>
    exact JavaType.isReference_of_mem_boundMembers values (members ▸ List.mem_cons_self)
  | case3 | case4 | case6 => rfl
  | case5 first rest members _ bounds =>
    obtain ⟨args, bound⟩ := t.exists_lubClasses_eq bounds
    rw [bound]
    rfl

/-- Primitive types convert to what a primitive bound of them converts to. -/
theorem isAssignable_of_widening (found : t.lub types = some bound) (hs : s ∈ types)
    (values : ∀ u ∈ types, u.isValue = true) (primitive : bound.isPrimitive = true)
    (declaredPrimitive : declared.isPrimitive = true)
    (accepted : t.isAssignable bound declared boxing = true) :
    t.isAssignable s declared boxing = true := by
  rcases lub_cases values found with same | ⟨-, widens⟩ | rfl
  · exact same s hs ▸ accepted
  · obtain ⟨q, rfl, -⟩ := JavaType.exists_eq_primitive primitive
    obtain ⟨r, rfl, -⟩ := JavaType.exists_eq_primitive declaredPrimitive
    obtain ⟨here, widens⟩ := widens s hs
    obtain ⟨p, rfl, -⟩ := JavaType.exists_eq_primitive here
    rcases primitive_of_isAssignable declaredPrimitive accepted with
      ⟨_, same, -, widens'⟩ | ⟨-, _, unboxed, -⟩
    · obtain rfl := JavaType.primitive.inj same
      exact isAssignable_of_isSubtypeUnchecked
        (isSubtypeUnchecked_of_widensTo here (Primitive.widensTo_trans widens widens'))
    · cases unboxed
  · exact absurd primitive
      (by simp [JavaType.not_isPrimitive_of_isReference (isReference_lubReferences values)])

/-- A primitive type converts to the primitive types that its wrapper converts to. -/
theorem isAssignable_of_unboxing (boxed : s.boxed? = some bound)
    (primitive : declared.isPrimitive = true)
    (accepted : t.isAssignable bound declared boxing = true) :
    t.isAssignable s declared boxing = true := by
  obtain ⟨r, rfl, -⟩ := JavaType.exists_eq_primitive primitive
  obtain ⟨here, name, rfl⟩ := JavaType.exists_of_boxed? boxed
  rcases primitive_of_isAssignable primitive accepted with
    ⟨_, same, -⟩ | ⟨-, p, unboxed, -, widens⟩
  · cases same
  · obtain rfl := Option.some.inj ((unboxed?_of_boxed? boxed).symm.trans unboxed)
    exact isAssignable_of_isSubtypeUnchecked (isSubtypeUnchecked_of_widensTo here widens)

/-- References, and what can be boxed, convert to the root class. -/
theorem isAssignable_root (root : declared.className? = some JavaType.objectName)
    (h : s.isReference = true ∨ boxing = true ∧ s.boxed?.isSome = true) :
    t.isAssignable s declared boxing = true := by
  rcases h with reference | ⟨rfl, boxed⟩
  · exact isAssignable_of_isSubtypeUnchecked
      (isSubtypeIn_iff.mpr ⟨1, subtypeWithin_root root reference⟩)
  · obtain ⟨wrapper, boxed⟩ := Option.isSome_iff_exists.mp boxed
    obtain ⟨-, name, rfl⟩ := JavaType.exists_of_boxed? boxed
    exact isAssignable_of_boxed boxed (isSubtypeIn_iff.mpr ⟨1, subtypeWithin_root root rfl⟩)

/-- What is above a class type or an array is a class type or an array. -/
theorem Regular.shape_of_below (regular : t.Regular arity)
    (hbound : bound.isGround arity false = true) (hdeclared : declared.isGround arity false = true)
    (shape : bound.isArray = true ∨ bound.isDeclared = true) (below : t.Below bound declared) :
    declared.isArray = true ∨ declared.isDeclared = true := by
  cases (regular.below_iff hbound hdeclared).mp below with
  | same => exact shape
  | root _ | arrayClass _ | view _ _ _ => exact .inr rfl
  | array _ _ _ => exact .inl rfl
  | null _ | widening _ _ => rcases shape with shape | shape <;> cases shape

/-- A member of a ground bound is a subtype of what the bound is a subtype of. -/
theorem Regular.isSubtype_of_isBoundOf (regular : t.Regular arity) {m : JavaType}
    (reference : m.isReference = true) (ground : m.upperBound.isGround arity false = true)
    (above : t.IsBoundOf bound m) (hbound : bound.isGround arity false = true)
    (shape : bound.isArray = true ∨ bound.isDeclared = true)
    (hdeclared : declared.isGround arity false = true)
    (below : t.isSubtypeUnchecked bound declared = true) : t.isSubtype m declared = true := by
  have right : t.Below bound declared := by
    obtain ⟨n, below⟩ := isSubtypeIn_iff.mp below
    exact ⟨n, regular.subtypeWithin_checked hbound hdeclared below⟩
  by_cases root : bound.className? = some JavaType.objectName
  · have top := regular.root_of_below hbound hdeclared root right
    exact isSubtypeIn_iff.mpr ⟨1, subtypeWithin_root top reference⟩
  · obtain ⟨n, within⟩ := isSubtypeIn_iff.mp above.isSubtypeUnchecked
    obtain ⟨k, within⟩ := exists_upperBound_below shape root m within
    have left : t.Below m.upperBound bound :=
      ⟨k, regular.subtypeWithin_checked ground hbound within⟩
    obtain ⟨j, whole⟩ := regular.below_trans ground hbound hdeclared left right
    exact isSubtypeIn_iff.mpr (exists_below_of_upperBound
      (regular.shape_of_below hbound hdeclared shape right) m whole)

/-- A type converts if the member of a bound that it becomes is a subtype. -/
theorem isAssignable_of_isSubtype_member (boxes : s.isReference = true ∨ boxing = true)
    (below : t.isSubtype (s.boxed?.getD s) declared = true) :
    t.isAssignable s declared boxing = true := by
  cases boxed : s.boxed? with
  | none =>
    rw [boxed, Option.getD_none] at below
    exact isAssignable_of_isSubtypeUnchecked (isSubtypeUnchecked_of_isSubtype below)
  | some wrapper =>
    rw [boxed, Option.getD_some] at below
    obtain rfl : boxing = true := by
      refine boxes.resolve_left fun reference => ?_
      rw [JavaType.boxed?_of_isReference reference] at boxed
      cases boxed
    exact isAssignable_of_boxed boxed below

/-- If all members of a list are references or can be boxed, they convert to the references that
their bound converts to. -/
theorem isAssignable_of_reference (regular : t.Regular arity)
    (root : arity JavaType.objectName = 0) (members : HasGroundMembers arity types)
    (hdeclared : declared.isGround arity false = true) (boundReference : bound.isReference = true)
    (reference : declared.isReference = true) (found : t.lub types = some bound) (hs : s ∈ types)
    (accepted : t.isAssignable bound declared boxing = true)
    (boxes : s.isReference = true ∨ boxing = true) : t.isAssignable s declared boxing = true := by
  have below : t.isSubtypeUnchecked bound declared = true := by
    rcases isSubtype_of_isAssignable accepted (JavaType.not_isPrimitive_of_isReference reference)
      with ⟨-, below⟩ | ⟨-, wrapper, boxed, -⟩
    · exact below
    · rw [JavaType.boxed?_of_isReference boundReference] at boxed
      cases boxed
  rcases lub_cases members.values found with same | ⟨primitive, -⟩ | rfl
  · exact same s hs ▸ accepted
  · exact absurd primitive (by simp [JavaType.not_isPrimitive_of_isReference boundReference])
  cases null : s.isNull with
  | true =>
    obtain rfl := JavaType.eq_null null
    exact isAssignable_of_isSubtypeUnchecked
      (isSubtypeIn_iff.mpr ⟨1, subtypeWithin_null reference⟩)
  | false =>
    have member : s.boxed?.getD s ∈ JavaType.boundMembers types :=
      JavaType.mem_boundMembers.mpr ⟨s, hs, null, rfl⟩
    have memberReference := JavaType.isReference_of_mem_boundMembers members.values member
    -- the bound is one of the members, and then all of them, or a ground type above them
    rcases lubReferences_ground regular root types fun m hm => members.ground_of_mem hm with
      ⟨empty, -⟩ | ⟨isMember, same⟩ | ⟨ground, shape⟩
    · exact absurd (empty ▸ member) List.not_mem_nil
    · have equal := members.eq_of_isSame member isMember (same _ member)
      have ground := members.ground_of_mem isMember
      cases boxed : s.boxed? with
      | none =>
        rw [boxed, Option.getD_none] at equal
        exact equal ▸ accepted
      | some wrapper =>
        obtain ⟨-, name, rfl⟩ := JavaType.exists_of_boxed? boxed
        rw [boxed, Option.getD_some] at equal
        rw [← equal] at ground below
        refine isAssignable_of_isSubtype_member boxes ?_
        rw [boxed, Option.getD_some]
        exact regular.isSubtype_of_unchecked ground hdeclared below
    · obtain ⟨-, above⟩ := lubReferences_bound regular.acyclic regular.arityCorrect types
        members.values fun _ => members.fits
      exact isAssignable_of_isSubtype_member boxes (regular.isSubtype_of_isBoundOf memberReference
        (members.ground_of_mem member) (above _ member) ground shape hdeclared below)

/-- Where the bound of some types converts to a declared type, so does each type to which the
conversion carries over. -/
theorem isAssignable_of_carriesOver (found : t.lub types = some bound) (hs : s ∈ types)
    (accepted : t.isAssignable bound declared boxing = true)
    (carries : t.CarriesOver boxing types bound declared s) :
    t.isAssignable s declared boxing = true := by
  cases carries with
  | same => exact accepted
  | null reference =>
    exact isAssignable_of_isSubtypeUnchecked
      (isSubtypeIn_iff.mpr ⟨1, subtypeWithin_null reference⟩)
  | widening values primitive primitive' =>
    exact isAssignable_of_widening found hs values primitive primitive' accepted
  | unboxing boxed primitive => exact isAssignable_of_unboxing boxed primitive accepted
  | root top convertible => exact isAssignable_root top convertible
  | reference regular root members ground reference reference' boxes =>
    exact isAssignable_of_reference regular root members ground reference reference' found hs
      accepted boxes

end Conversions

end ClassTable

end JavaRefactor
