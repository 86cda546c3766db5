import JavaRefactor.Proofs.Hierarchy.Containment
import JavaRefactor.Proofs.Hierarchy.Parametric

/-!
# Subtyping is a preorder

On ground types of a regular table, checked subtyping is what the rules of the language say:
`ClassTable.Step` has one constructor for each of them, and one type is a subtype of another
exactly if a rule says so of the types that they are built from (`ClassTable.Regular.below_iff`).
Two steps that follow each other make one step if subtyping is transitive at the smaller types in
the middle (`ClassTable.Regular.step_trans`), so subtyping is transitive by induction on the
type in the middle.
-/

namespace JavaRefactor

/-- Widening in two steps is widening. -/
theorem Primitive.widensTo_trans {p q r : Primitive} (left : p.widensTo q = true)
    (right : q.widensTo r = true) : p.widensTo r = true := by
  have all : ∀ p ∈ Primitive.all, ∀ q ∈ Primitive.all, ∀ r ∈ Primitive.all,
      p.widensTo q = true → q.widensTo r = true → p.widensTo r = true := by decide +kernel
  exact all p p.mem_all q q.mem_all r r.mem_all left right

/-- Only `null` widens to `null`. -/
theorem Primitive.eq_null_of_widensTo {p : Primitive} (h : p.widensTo .null = true) :
    p = .null := by
  cases p <;> first | rfl | exact absurd h Bool.false_ne_true

namespace ClassTable

/-- One type is a subtype of another by a rule of the language, given how the types are related that
they are built from. -/
inductive Step (t : ClassTable) (below : JavaType → JavaType → Prop) :
    JavaType → JavaType → Prop where
  | same {a : JavaType} : Step t below a a
  | root {a : JavaType} {args : List JavaType} : a.isReference = true →
    Step t below a (.declared JavaType.objectName args)
  | null {b : JavaType} : b.isReference = true → Step t below (.primitive .null) b
  | widening {p q : Primitive} : p ≠ .null → p.widensTo q = true →
    Step t below (.primitive p) (.primitive q)
  | array {a b : JavaType} : a.isPrimitive = false → b.isPrimitive = false → below a b →
    Step t below (.array a) (.array b)
  | arrayClass {a : JavaType} {name : String} {args : List JavaType} : name ∈ arraySupertypes →
    Step t below (.array a) (.declared name args)
  | view {name target : String} {args vs sups : List JavaType} :
    target ≠ JavaType.objectName → t.Chain (.declared name args) (.declared target vs) →
    List.Forall₂ (Contains below) sups vs →
    Step t below (.declared name args) (.declared target sups)

/-- One type is found to be a subtype of another, in the checked form, within some number of
steps. -/
def Below (t : ClassTable) (a b : JavaType) : Prop := ∃ n, t.subtypeWithin false n a b = some true

variable {t : ClassTable} {arity : String → Nat} {a b c : JavaType}

/-! ### The rules -/

/-- A view that fits has arguments that are contained in those of its class. -/
theorem viewFits_iff {decide : JavaType → JavaType → Option Bool} {target : String}
    {sups vs : List JavaType} (length : vs.length = sups.length)
    (ground : ∀ a ∈ sups, a.isGround arity true = true) :
    viewFits decide false sups (some (.declared target vs)) = some true ↔
      List.Forall₂ (Contains fun a b => decide a b = some true) sups vs := by
  have pairs : allPairs (containsArgument decide) (sups.zip vs) = some true ↔
      List.Forall₂ (Contains fun a b => decide a b = some true) sups vs := by
    rw [allPairs_eq_true_iff, List.forall₂_iff_zip]
    constructor
    · intro h
      refine ⟨length.symm, fun {a b} hab => ?_⟩
      exact (containsArgument_iff (ground a (List.of_mem_zip hab).1)).mp (h _ hab)
    · rintro ⟨-, h⟩ p hp
      exact (containsArgument_iff (ground p.1 (List.of_mem_zip hp).1)).mpr (h hp)
  rw [← pairs]
  unfold viewFits
  simp only
  cases sups with
  | nil => simp [allPairs]
  | cons s ss =>
    cases vs with
    | nil => exact absurd length (by simp)
    | cons v vs => rw [if_neg (by simp), if_neg (by simp), if_pos length]

/-- What is decided of two arrays comes from the rule for arrays. -/
theorem step_of_elements {n : Nat}
    (h : (if (a.isPrimitive || b.isPrimitive) = true then some (a == b)
      else t.subtypeWithin false n a b) = some true) : t.Step t.Below (.array a) (.array b) := by
  split at h
  · obtain rfl := beq_iff_eq.mp (Option.some.inj h)
    exact .same
  · rename_i references
    rw [Bool.or_eq_true, not_or, Bool.not_eq_true, Bool.not_eq_true] at references
    exact .array references.1 references.2 ⟨n, h⟩

/-- What is decided of a view comes from the rule for views. -/
theorem Regular.step_of_viewFits (regular : t.Regular arity) {name target : String}
    {args sups : List JavaType} (ha : (JavaType.declared name args).isGround arity false = true)
    (hb : (JavaType.declared target sups).isGround arity false = true)
    (proper : target ≠ JavaType.objectName) {n : Nat} {view : Option JavaType}
    (found : t.asSuperWithin (n + 1) (.declared name args) target = some view)
    (fits : viewFits (t.subtypeWithin false n) false sups view = some true) :
    t.Step t.Below (.declared name args) (.declared target sups) := by
  obtain ⟨full, -⟩ := JavaType.isGround_declared.mp ha
  obtain ⟨full', ground⟩ := JavaType.isGround_declared.mp hb
  match view with
  | some (.declared c vs) =>
    obtain ⟨rfl, chain, length, -⟩ := regular.args_of_asSuperWithin full proper found
    have fits := (viewFits_iff (length.trans full'.symm) ground).mp fits
    exact .view proper chain (fits.imp fun _ _ h => h.mono fun _ _ h => ⟨n, h⟩)
  | none => exact absurd (Option.some.inj fits) Bool.false_ne_true
  | some (.primitive _) | some (.array _) | some (.var _ _ _) | some (.wildcard _ _)
  | some (.method _ _) | some (.generic _ _) | some .unknown =>
    exact absurd (Option.some.inj fits) Bool.false_ne_true

/-- What is decided comes from a rule. -/
theorem Regular.step_of_subtypeWithin (regular : t.Regular arity)
    (ha : a.isGround arity false = true) (hb : b.isGround arity false = true) {n : Nat}
    (h : t.subtypeWithin false n a b = some true) : t.Step t.Below a b := by
  cases n with
  | zero => exact absurd h (by simp [subtypeWithin])
  | succ n =>
    unfold subtypeWithin at h
    split at h
    · rename_i same
      exact JavaType.eq_of_isSame a b ha same ▸ .same
    -- the root is decided by itself, and after it each form of the type below
    · split at h
      · rename_i root
        cases b with
        | declared name args =>
          obtain rfl := Option.some.inj root
          exact .root (Option.some.inj h)
        | _ => exact absurd root (by simp [JavaType.className?])
      · rename_i proper
        cases a with
        | primitive p =>
          cases p with
          | null => exact .null (Option.some.inj h)
          | _ =>
            cases b with
            | primitive q => exact .widening (by decide) (Option.some.inj h)
            | _ => exact absurd (Option.some.inj h) Bool.false_ne_true
        | array x =>
          cases b with
          | array y => exact step_of_elements h
          | declared name args =>
            refine .arrayClass ?_
            change (t.asSuperWithin (n + 1) (.array x) name).map Option.isSome = some true at h
            unfold asSuperWithin at h
            by_contra other
            rw [if_neg other] at h
            exact absurd (Option.some.inj h) Bool.false_ne_true
          | primitive _ => exact absurd (Option.some.inj h) Bool.false_ne_true
          | _ => exact absurd hb Bool.false_ne_true
        | declared name args =>
          cases b with
          | declared target sups =>
            have proper : target ≠ JavaType.objectName := fun root => proper (congrArg some root)
            change (t.asSuperWithin (n + 1) (.declared name args) target).bind _ = _ at h
            obtain ⟨view, found, fits⟩ := Option.bind_eq_some_iff.mp h
            exact regular.step_of_viewFits ha hb proper found fits
          | primitive _ | array _ => exact absurd (Option.some.inj h) Bool.false_ne_true
          | _ => exact absurd hb Bool.false_ne_true
        | _ => exact absurd ha Bool.false_ne_true

/-- An argument that is contained is found to be within some number of steps. -/
theorem exists_contains {formal actual : JavaType} (h : Contains t.Below formal actual) :
    ∃ n, Contains (fun a b => t.subtypeWithin false n a b = some true) formal actual := by
  cases h with
  | same plain => exact ⟨0, .same plain⟩
  | free open_end => exact ⟨0, .free open_end⟩
  | upper about below =>
    obtain ⟨n, below⟩ := below
    exact ⟨n, .upper about below⟩
  | lower about below =>
    obtain ⟨n, below⟩ := below
    exact ⟨n, .lower about below⟩

/-- Arguments that are contained are found to be within some number of steps. -/
theorem exists_forall₂_contains {sups vs : List JavaType}
    (h : List.Forall₂ (Contains t.Below) sups vs) :
    ∃ n, List.Forall₂ (Contains fun a b => t.subtypeWithin false n a b = some true) sups vs := by
  induction h with
  | nil => exact ⟨0, .nil⟩
  | cons here _ ih =>
    obtain ⟨m, first⟩ := exists_contains here
    obtain ⟨n, rest⟩ := ih
    refine ⟨max m n, .cons (first.mono fun _ _ => ?_) (rest.imp fun _ _ h => h.mono fun _ _ => ?_)⟩
    · exact t.subtypeWithin_mono false (Nat.le_max_left m n)
    · exact t.subtypeWithin_mono false (Nat.le_max_right m n)

/-- The view of a type as a proper class is the end of every chain to the class. -/
theorem Regular.asSuperWithin_of_chain (regular : t.Regular arity) {name target : String}
    {args vs : List JavaType} (full : args.length = arity name)
    (proper : target ≠ JavaType.objectName)
    (chain : t.Chain (.declared name args) (.declared target vs)) {n : Nat} (enough : t.size < n) :
    t.asSuperWithin n (.declared name args) target = some (some (.declared target vs)) := by
  obtain ⟨_, _, same, way⟩ := chain.inherits regular.classSupertypes
  obtain ⟨rfl, rfl⟩ := JavaType.declared.inj same
  obtain ⟨v, -, found⟩ := exists_asSuper? regular.acyclic regular.classSupertypes way args
  have found := found n enough
  obtain ⟨ws, rfl, chain'⟩ := exists_chain_of_asSuperWithin regular.classSupertypes proper found
  rw [found, regular.eq_of_chains full chain chain']

/-- Every rule is followed by the decision. -/
theorem Regular.below_of_step (regular : t.Regular arity) (ha : a.isGround arity false = true)
    (hb : b.isGround arity false = true) (step : t.Step t.Below a b) : t.Below a b := by
  cases step with
  | same => exact ⟨1, subtypeWithin_of_isSame (JavaType.isSame_refl a)⟩
  | root reference => exact ⟨1, subtypeWithin_root rfl reference⟩
  | null reference => exact ⟨1, subtypeWithin_null reference⟩
  | widening numeric widens => exact ⟨1, subtypeWithin_primitive numeric widens⟩
  | array hx hy below =>
    obtain ⟨n, below⟩ := below
    exact ⟨n + 1, subtypeWithin_array hx hy below⟩
  | arrayClass top => exact ⟨1, subtypeWithin_arrayClass top⟩
  | @view name target args vs sups proper chain contained =>
    obtain ⟨full, -⟩ := JavaType.isGround_declared.mp ha
    obtain ⟨full', ground⟩ := JavaType.isGround_declared.mp hb
    obtain ⟨n, contained⟩ := exists_forall₂_contains contained
    have enough : t.size < max n t.size + 1 := by omega
    have found := regular.asSuperWithin_of_chain full proper chain enough
    refine ⟨max n t.size + 1, subtypeWithin_declared found ?_⟩
    refine (viewFits_iff ?_ ground).mpr (contained.imp fun _ _ h => h.mono fun _ _ => ?_)
    · exact contained.length_eq.symm
    · exact t.subtypeWithin_mono false (Nat.le_max_left _ _)

/-- One ground type is a subtype of another exactly by one of the rules. -/
theorem Regular.below_iff (regular : t.Regular arity) (ha : a.isGround arity false = true)
    (hb : b.isGround arity false = true) : t.Below a b ↔ t.Step t.Below a b := by
  constructor
  · rintro ⟨n, h⟩
    exact regular.step_of_subtypeWithin ha hb h
  · exact regular.below_of_step ha hb

/-- The decision within its budget is right about ground types. -/
theorem Regular.isSubtype_iff (regular : t.Regular arity) (ha : a.isGround arity false = true)
    (hb : b.isGround arity false = true) : t.isSubtype a b = true ↔ t.Below a b := by
  refine ⟨exists_subtypeWithin, fun ⟨n, h⟩ => ?_⟩
  have ends : (t.subtypeWithin false (t.subtypeBudget a b) a b).isSome = true :=
    regular.subtypeBudget_isSome ha hb
  obtain ⟨answer, decided⟩ := Option.isSome_iff_exists.mp ends
  have long := t.subtypeWithin_mono false (Nat.le_max_left n (t.subtypeBudget a b)) h
  have short := t.subtypeWithin_mono false (Nat.le_max_right n (t.subtypeBudget a b)) decided
  obtain rfl := Option.some.inj (short.symm.trans long)
  exact isSubtypeIn_of_subtypeWithin decided

/-! ### Transitivity -/

/-- The only primitive type that is a reference is the null type. -/
theorem not_isReference_of_ne_null {p : Primitive} (h : p ≠ .null) :
    (JavaType.primitive p).isReference ≠ true := by
  cases p with
  | null => exact absurd rfl h
  | _ => exact Bool.false_ne_true

/-- What is above a reference is a reference. -/
theorem Step.isReference {below : JavaType → JavaType → Prop} (step : t.Step below a b)
    (reference : a.isReference = true) : b.isReference = true := by
  cases step with
  | same => exact reference
  | null h => exact h
  | widening numeric _ => exact absurd reference (not_isReference_of_ne_null numeric)
  | root _ | array _ _ _ | arrayClass _ | view _ _ _ => rfl

/-- From a class without supertypes, chains lead nowhere. -/
theorem eq_of_chain_of_top {name target : String} {args vs : List JavaType}
    (regular : t.Regular arity) (top : name ∈ arraySupertypes)
    (chain : t.Chain (.declared name args) (.declared target vs)) : target = name := by
  obtain ⟨_, _, same, way⟩ := chain.inherits regular.classSupertypes
  obtain ⟨rfl, -⟩ := JavaType.declared.inj same
  rcases Relation.ReflTransGen.cases_head way with rfl | ⟨sup, step, -⟩
  · rfl
  · exact absurd step (by simp [Extends, regular.top name top])

/-- A view of a view is a view, and its arguments are contained in those of the classes on the
way. -/
theorem Regular.view_trans (regular : t.Regular arity) {below : JavaType → JavaType → Prop}
    {name middle target : String} {as bs cs vs ws : List JavaType}
    (ha : (JavaType.declared name as).isGround arity false = true)
    (hb : (JavaType.declared middle bs).isGround arity false = true)
    (hc : (JavaType.declared target cs).isGround arity false = true)
    (through : ∀ x, x.size < (JavaType.declared middle bs).size →
      x.isGround arity false = true → ∀ a c,
      a.isGround arity false = true → c.isGround arity false = true →
      below a x → below x c → below a c)
    (proper : target ≠ JavaType.objectName)
    (chain : t.Chain (.declared name as) (.declared middle vs))
    (contained : List.Forall₂ (Contains below) bs vs)
    (chain' : t.Chain (.declared middle bs) (.declared target ws))
    (contained' : List.Forall₂ (Contains below) cs ws) :
    t.Step below (.declared name as) (.declared target cs) := by
  obtain ⟨full, ga⟩ := JavaType.isGround_declared.mp ha
  obtain ⟨full', gb⟩ := JavaType.isGround_declared.mp hb
  obtain ⟨-, gc⟩ := JavaType.isGround_declared.mp hc
  -- the view of `middle` with other arguments is the view of the view
  obtain ⟨_, _, us, same, chain'', -, related⟩ := regular.forall₂_of_chain (R := Contains below)
    (fun r rigid _ => .same (JavaType.not_isWildcard_of_isRigid rigid)) full' contained chain'
  obtain ⟨rfl, rfl⟩ := JavaType.declared.inj same
  have whole : t.Chain (.declared name as) (.declared target us) := chain.trans chain''
  refine .view proper whole ?_
  have origin := (regular.args_of_chain full' chain').2
  have ground_view : ∀ u ∈ us, u.isGround arity true = true := by
    intro u hu
    rcases (regular.args_of_chain full whole).2 u hu with hu | ⟨rigid, -⟩
    · exact ga u hu
    · exact JavaType.isGround_of_isRigid u rigid
  rw [List.forall₂_iff_get] at contained' related ⊢
  refine ⟨contained'.1.trans related.1, fun i hi hi' => ?_⟩
  have hw : i < ws.length := contained'.1 ▸ hi
  refine Contains.trans ?_ (gc _ (List.get_mem _ _)) (ground_view _ (List.get_mem _ _))
    (contained'.2 i hi hw) (related.2 i hw hi')
  intro x wild core
  -- a wildcard in the middle is an argument of the type in the middle
  rcases origin _ (List.get_mem ws ⟨i, hw⟩) with hx | ⟨rigid, -⟩
  · obtain ⟨gx, small, -, -⟩ := JavaType.core_of_isGround (gb _ hx) core
    exact through x (Nat.lt_of_le_of_lt small (JavaType.size_lt_of_mem hx)) gx
  · rw [JavaType.not_isWildcard_of_isRigid rigid] at wild
    exact absurd wild Bool.false_ne_true

/-- Two steps make one if subtyping is transitive at the smaller types in the middle. -/
theorem Regular.step_trans (regular : t.Regular arity) {below : JavaType → JavaType → Prop}
    (ha : a.isGround arity false = true) (hb : b.isGround arity false = true)
    (hc : c.isGround arity false = true)
    (through : ∀ x, x.size < b.size → x.isGround arity false = true → ∀ a c,
      a.isGround arity false = true → c.isGround arity false = true →
      below a x → below x c → below a c)
    (left : t.Step below a b) (right : t.Step below b c) : t.Step below a c := by
  -- Only arrays and views go through smaller types, where transitivity is known.
  cases left with
  | same => exact right
  | root reference =>
    cases right with
    | same | root _ => exact .root reference
    | view proper chain _ =>
      exact absurd (eq_of_chain_of_top regular List.mem_cons_self chain) proper
  | null reference => exact .null (right.isReference reference)
  | @widening p q numeric widens =>
    have numeric' : q ≠ .null := fun e => numeric (Primitive.eq_null_of_widensTo (e ▸ widens))
    cases right with
    | same => exact .widening numeric widens
    | root reference => exact absurd reference (not_isReference_of_ne_null numeric')
    | null _ => exact absurd rfl numeric'
    | widening _ widens' => exact .widening numeric (Primitive.widensTo_trans widens widens')
  | @array x y hx hy below =>
    cases right with
    | same => exact .array hx hy below
    | root _ => exact .root rfl
    | array _ hz below' =>
      refine .array hx hz (through y ?_ hb _ _ ha hc below below')
      rw [JavaType.size]
      omega
    | arrayClass top => exact .arrayClass top
  | arrayClass top =>
    cases right with
    | same => exact .arrayClass top
    | root _ => exact .root rfl
    | view _ chain _ => exact .arrayClass (eq_of_chain_of_top regular top chain ▸ top)
  | view proper chain contained =>
    cases right with
    | same => exact .view proper chain contained
    | root _ => exact .root rfl
    | view proper' chain' contained' =>
      exact regular.view_trans ha hb hc through proper' chain contained chain' contained'

/-- Subtyping of ground types is transitive. -/
theorem Regular.below_trans (regular : t.Regular arity) (ha : a.isGround arity false = true)
    (hb : b.isGround arity false = true) (hc : c.isGround arity false = true)
    (left : t.Below a b) (right : t.Below b c) : t.Below a c := by
  induction size : b.size using Nat.strong_induction_on generalizing a b c with
  | _ n ih =>
    subst size
    refine (regular.below_iff ha hc).mpr (regular.step_trans ha hb hc ?_
      ((regular.below_iff ha hb).mp left) ((regular.below_iff hb hc).mp right))
    intro x smaller hx a c ha hc left right
    exact ih x.size smaller ha hx hc left right rfl

/-- Subtyping of ground types is decided, reflexive and transitive in a regular table. -/
theorem isSubtype_preorder (regular : t.Regular arity) :
    (∀ a b : JavaType, a.isGround arity false = true → b.isGround arity false = true →
      (t.subtypeWithin false (t.subtypeBudget a b) a b).isSome = true) ∧
    (∀ a : JavaType, a.isGround arity false = true → t.isSubtype a a = true) ∧
    ∀ a b c : JavaType, a.isGround arity false = true → b.isGround arity false = true →
      c.isGround arity false = true → t.isSubtype a b = true → t.isSubtype b c = true →
      t.isSubtype a c = true := by
  refine ⟨fun a b ha hb => regular.subtypeBudget_isSome ha hb, fun a ha => ?_,
    fun a b c ha hb hc left right => ?_⟩
  · exact (regular.isSubtype_iff ha ha).mpr ⟨1, subtypeWithin_of_isSame (JavaType.isSame_refl a)⟩
  · have left := (regular.isSubtype_iff ha hb).mp left
    have right := (regular.isSubtype_iff hb hc).mp right
    exact (regular.isSubtype_iff ha hc).mpr (regular.below_trans ha hb hc left right)

/-- Over the core classes, a list of integers is a collection of numbers, as it is a list of
numbers. -/
theorem isSubtype_preorder_core :
    core.isSubtype (.declared "java.util.ArrayList" [.ofClass "java.lang.Integer"])
      (.declared "java.util.Collection" [.wildcard .upper (some (.ofClass "java.lang.Number"))]) =
        true :=
  (isSubtype_preorder regular_core).2.2
    (.declared "java.util.ArrayList" [.ofClass "java.lang.Integer"])
    (.declared "java.util.List" [.wildcard .upper (some (.ofClass "java.lang.Number"))])
    (.declared "java.util.Collection" [.wildcard .upper (some (.ofClass "java.lang.Number"))])
    (by decide +kernel) (by decide +kernel) (by decide +kernel) (by decide +kernel)
    (by decide +kernel)

end ClassTable

end JavaRefactor
