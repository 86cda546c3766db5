import JavaRefactor.Proofs.Hierarchy.RelatedViews
import JavaRefactor.Proofs.Inference.Steps

/-!
# Equality bounds

Let a substitution assign types to the free variables.  A formal type *follows* another type
if reduction to equality succeeds for every actual type that is the same as the other, and the
substitution satisfies the bounds that it records.  A formal type follows what the substitution
makes of it (`InferenceContext.follows_substitute`), and so do formal types that are substituted
for the parameters of a class (`InferenceContext.substitutionClosed_follows`).  Each of the two
says what is known of variables, and the rest is one induction over types
(`InferenceContext.follows_of_matches`).
-/

namespace JavaRefactor

/-! ### Bounds that hold -/

/-- A substitution assigns to each of some variables, and to no other, a reference type that is
no wildcard. -/
structure Substitution.Assigns (S : Substitution) (vars : List String) : Prop where
  domain : ∀ v, (S.lookup v).isSome = true ↔ v ∈ vars
  reference : ∀ v x, S.lookup v = some x → x.isReference = true
  plain : ∀ v x, S.lookup v = some x → x.isWildcard = false

/-- A substitution satisfies a bound: it assigns to the variable the type of an equality bound, a
type above a lower bound, or one below an upper bound. -/
def Bound.Holds (t : ClassTable) (S : Substitution) (b : Bound) : Prop :=
  ∃ x, S.lookup b.var = some x ∧
    match b.kind with
    | .equal => x.isSame b.type = true
    | .lower => t.isSubtypeUnchecked b.type x = true
    | .upper => t.isSubtypeUnchecked x b.type = true

/-- Reduction succeeds, and a substitution satisfies the bounds. -/
def BoundsHold (t : ClassTable) (S : Substitution) (r : Except InferenceError (List Bound)) :
    Prop :=
  ∃ bounds, r = .ok bounds ∧ ∀ b ∈ bounds, b.Holds t S

section BoundsHold

variable {t : ClassTable} {S : Substitution} {x y : Except InferenceError (List Bound)}

/-- No bounds hold. -/
theorem BoundsHold.nil : BoundsHold t S (.ok []) :=
  ⟨[], rfl, fun _ hb => absurd hb List.not_mem_nil⟩

/-- One bound holds if it is satisfied. -/
theorem BoundsHold.single {b : Bound} (h : b.Holds t S) : BoundsHold t S (.ok [b]) :=
  ⟨[b], rfl, List.forall_mem_singleton.mpr h⟩

/-- The bounds of two reductions in turn hold if those of each do. -/
theorem BoundsHold.append (hx : BoundsHold t S x) (hy : BoundsHold t S y) :
    BoundsHold t S (do let here ← x; let others ← y; return here ++ others) := by
  obtain ⟨here, rfl, left⟩ := hx
  obtain ⟨others, rfl, right⟩ := hy
  exact ⟨here ++ others, rfl, List.forall_mem_append.mpr ⟨left, right⟩⟩

end BoundsHold

/-! ### Substitutions that agree on variables -/

namespace Substitution

/-- What a substitution makes of a type variable with some bounds. -/
def onVariable (σ : Substitution) (name : String) (upper : JavaType) (lower : Option JavaType) :
    JavaType :=
  (σ.lookup name).getD (.var name upper lower)

/-- Two substitutions make related types of each type variable. -/
def Matches (R : JavaType → JavaType → Prop) (σ τ : Substitution) : Prop :=
  ∀ name upper lower upper' lower',
    R (σ.onVariable name upper lower) (τ.onVariable name upper' lower')

/-- What is left of a substitution finds all but the variables that are taken away. -/
theorem lookup_without (σ : Substitution) (vars : List String) (name : String) :
    (σ.without vars).lookup name = if vars.contains name then none else σ.lookup name := by
  induction σ with
  | nil =>
    split
    · rfl
    · rfl
  | cons entry σ ih =>
    obtain ⟨key, type⟩ := entry
    by_cases bound : vars.contains key = true
    · have drop : without ((key, type) :: σ) vars = without σ vars :=
        List.filter_cons_of_neg (by simp only [bound, Bool.not_true, Bool.false_eq_true,
          not_false_eq_true])
      rw [drop, ih, List.lookup_cons]
      by_cases same : name = key
      · rw [same, if_pos bound, if_pos bound]
      · rw [beq_eq_false_iff_ne.mpr same]
    · have keep : without ((key, type) :: σ) vars = (key, type) :: without σ vars :=
        List.filter_cons_of_pos (by rw [Bool.not_eq_true] at bound; rw [bound, Bool.not_false])
      rw [keep, List.lookup_cons, List.lookup_cons, ih]
      by_cases same : name = key
      · rw [same, beq_self_eq_true]
        exact (if_neg bound).symm
      · rw [beq_eq_false_iff_ne.mpr same]

end Substitution

namespace JavaType

/-- What becomes of a type variable depends on its name and on what becomes of its bounds. -/
theorem substitute_var (σ : Substitution) (name : String) (upper : JavaType)
    (lower : Option JavaType) :
    (var name upper lower).substitute σ =
      σ.onVariable name (upper.substitute σ) (substituteOption σ lower) := by
  rw [substitute, Substitution.onVariable]
  cases σ.lookup name with
  | none => rfl
  | some _ => rfl

/-- Two types are the same, if the first mentions none of some variables. -/
def SameUnlessMentions (vars : List String) (f g : JavaType) : Prop :=
  f.mentions vars = false → f.isSame g = true

/-- Below a quantifier two substitutions agree as far as they did outside. -/
theorem matches_without {vars : List String} {σ τ : Substitution}
    (h : Substitution.Matches (SameUnlessMentions vars) σ τ) (bound : List String) :
    Substitution.Matches (SameUnlessMentions vars) (σ.without bound) (τ.without bound) := by
  intro name upper lower upper' lower'
  unfold Substitution.onVariable
  rw [Substitution.lookup_without, Substitution.lookup_without]
  split
  · intro _
    exact beq_self_eq_true name
  · exact h name upper lower upper' lower'

mutual

/-- Substitutions that agree on the variables that are not mentioned agree on the types that mention
none of the others. -/
theorem sameUnlessMentions_substitute {vars : List String} {σ τ : Substitution} :
    (u : JavaType) → Substitution.Matches (SameUnlessMentions vars) σ τ →
      SameUnlessMentions vars (u.substitute σ) (u.substitute τ)
  | .primitive kind, _ => fun _ => isSame_refl (.primitive kind)
  | .unknown, _ => fun _ => rfl
  | .declared name args, h => by
    intro apart
    have each := isSameEach_substitute args h apart
    rw [substitute, substitute, isSame, each, beq_self_eq_true, Bool.and_self]
  | .array element, h => fun apart => sameUnlessMentions_substitute element h apart
  | .var name upper lower, h => by
    rw [substitute_var, substitute_var]
    exact h name _ _ _ _
  | .wildcard kind bound, h => by
    intro apart
    have inner := isSameOption_substitute bound h apart
    rw [substitute, substitute, isSame, inner, beq_self_eq_true, Bool.and_self]
  | .method params ret, h => by
    intro apart
    rw [substitute, mentions, Bool.or_eq_false_iff] at apart
    have each := isSameEach_substitute params h apart.1
    have result := sameUnlessMentions_substitute ret h apart.2
    rw [substitute, substitute, isSame, each, result, Bool.and_self]
  | .generic bound signature, h => by
    intro apart
    have inner := sameUnlessMentions_substitute signature (matches_without h bound) apart
    rw [substitute, substitute, isSame, inner, beq_self_eq_true, Bool.and_self]

theorem isSameEach_substitute {vars : List String} {σ τ : Substitution} :
    (us : List JavaType) → Substitution.Matches (SameUnlessMentions vars) σ τ →
      mentionsAny vars (substituteEach σ us) = false →
        isSameEach (substituteEach σ us) (substituteEach τ us) = true
  | [], _, _ => rfl
  | u :: us, h, apart => by
    rw [substituteEach, mentionsAny, Bool.or_eq_false_iff] at apart
    have here := sameUnlessMentions_substitute u h apart.1
    have others := isSameEach_substitute us h apart.2
    rw [substituteEach, substituteEach, isSameEach, here, others, Bool.and_self]

theorem isSameOption_substitute {vars : List String} {σ τ : Substitution} :
    (x : Option JavaType) → Substitution.Matches (SameUnlessMentions vars) σ τ →
      mentionsOption vars (substituteOption σ x) = false →
        isSameOption (substituteOption σ x) (substituteOption τ x) = true
  | none, _, _ => rfl
  | some u, h, apart => sameUnlessMentions_substitute u h apart

end

end JavaType

namespace InferenceContext

variable {c : InferenceContext} {S : Substitution} {vars : List String} {f g a : JavaType}

/-! ### Formal types that follow others -/

/-- A formal type follows another type: it is the same if it mentions no free variable, and if
not, equating it with every type that is the same as the other succeeds with bounds that hold, as a
type and as a type argument.  Only types that mention none of some variables are considered. -/
structure Follows (c : InferenceContext) (S : Substitution) (vars : List String)
    (f g : JavaType) : Prop where
  same : JavaType.SameUnlessMentions c.free f g
  equal : ∀ a, (∀ v ∈ vars, a.mentions [v] = false) → g.isSame a = true →
    BoundsHold c.table S (c.reduceEqual f a)
  argument : ∀ a, (∀ v ∈ vars, a.mentions [v] = false) → g.isSame a = true →
    BoundsHold c.table S (c.equateArguments f a)

/-- What mentions no free variable is equal to the types that are the same as what it is the same
as. -/
theorem equal_of_not_mentions (same : JavaType.SameUnlessMentions c.free f g)
    (closed : f.mentions c.free = false) (h : g.isSame a = true) :
    BoundsHold c.table S (c.reduceEqual f a) := by
  have both : f.isSame a = true := JavaType.isSame_trans f g a (same closed) h
  rw [JavaType.isSame_comm] at both
  rw [reduceEqual_of_not_mentions closed both]
  exact .nil

/-- A type that is no wildcard is equated as an argument as it is elsewhere, unless the other
argument is a wildcard. -/
theorem equateArguments_of_equal (plain : f.isWildcard = false)
    (h : BoundsHold c.table S (c.reduceEqual f a)) :
    BoundsHold c.table S (c.equateArguments f a) := by
  cases f with
  | wildcard _ _ => exact absurd plain (by simp [JavaType.isWildcard])
  | _ =>
    cases a with
    | wildcard _ _ => exact .nil
    | _ => exact h

/-- It is enough to compare types that mention a free variable. -/
theorem Follows.of_mentions (plain : f.isWildcard = false)
    (same : JavaType.SameUnlessMentions c.free f g)
    (equal : f.mentions c.free = true → ∀ a, (∀ v ∈ vars, a.mentions [v] = false) →
      g.isSame a = true → BoundsHold c.table S (c.reduceEqual f a)) : Follows c S vars f g := by
  have all (a : JavaType) (clear : ∀ v ∈ vars, a.mentions [v] = false) (h : g.isSame a = true) :
      BoundsHold c.table S (c.reduceEqual f a) := by
    cases mentioned : f.mentions c.free with
    | false => exact equal_of_not_mentions same mentioned h
    | true => exact equal mentioned a clear h
  exact ⟨same, all, fun a clear h => equateArguments_of_equal plain (all a clear h)⟩

/-- What two substitutions make of a type is the same unless it mentions free variables, if that is
so for each variable. -/
theorem same_of_matches {σ τ : Substitution} (h : Substitution.Matches (Follows c S vars) σ τ)
    (u : JavaType) :
    JavaType.SameUnlessMentions c.free (u.substitute σ) (u.substitute τ) :=
  JavaType.sameUnlessMentions_substitute u fun _ _ _ _ _ => (h _ _ _ _ _).same

mutual

/-- If what two substitutions make of variables follows one another, then so does what they make of
any type. -/
theorem follows_of_matches {σ τ : Substitution} :
    (u : JavaType) → Substitution.Matches (Follows c S vars) σ τ →
      Follows c S vars (u.substitute σ) (u.substitute τ)
  | .primitive kind, _ =>
    .of_mentions rfl (fun _ => JavaType.isSame_refl (.primitive kind)) fun mentioned =>
      absurd mentioned Bool.false_ne_true
  | .unknown, _ =>
    .of_mentions rfl (fun _ => rfl) fun mentioned => absurd mentioned Bool.false_ne_true
  | .declared name args, h => by
    have same := same_of_matches h (.declared name args)
    refine .of_mentions rfl same fun mentioned a clear actual => ?_
    cases a with
    | declared actualName as =>
      rw [JavaType.substitute, JavaType.isSame, Bool.and_eq_true, beq_iff_eq] at actual
      obtain ⟨rfl, each⟩ := actual
      have length : as.length = (JavaType.substituteEach σ args).length := by
        have full := JavaType.length_eq_of_isSameEach each
        rw [JavaType.substituteEach_eq_map, List.length_map] at full ⊢
        exact full.symm
      rw [reduceEqual_eq mentioned rfl, JavaType.substitute, equateForms_declared length]
      exact boundsHold_each_of_matches args h as clear each
    | _ => exact absurd actual Bool.false_ne_true
  | .array element, h => by
    have same := same_of_matches h (.array element)
    refine .of_mentions rfl same fun mentioned a clear actual => ?_
    cases a with
    | array b =>
      rw [reduceEqual_eq mentioned rfl]
      exact (follows_of_matches element h).equal b clear actual
    | _ => exact absurd actual Bool.false_ne_true
  | .var name upper lower, h => by
    rw [JavaType.substitute_var, JavaType.substitute_var]
    exact h name _ _ _ _
  -- A wildcard is compared as a type and as an argument.  Only as an argument its bound is equated.
  | .wildcard kind bound, h => by
    have same := same_of_matches h (.wildcard kind bound)
    refine ⟨same, fun a _ actual => ?_, fun a clear actual => ?_⟩
    · cases mentioned : (JavaType.substitute σ (.wildcard kind bound)).mentions c.free with
      | false => exact equal_of_not_mentions same mentioned actual
      | true =>
        cases a with
        | wildcard _ _ =>
          rw [reduceEqual_eq mentioned rfl]
          exact .nil
        | _ => exact absurd actual Bool.false_ne_true
    · cases a with
      | wildcard actualKind y =>
        rw [JavaType.substitute, JavaType.isSame, Bool.and_eq_true, beq_iff_eq] at actual
        obtain ⟨rfl, actual⟩ := actual
        rw [JavaType.substitute]
        cases bound with
        | none => exact .nil
        | some b =>
          cases y with
          | none => exact absurd actual Bool.false_ne_true
          | some b' =>
            rw [JavaType.substituteOption, equateArguments_wildcard]
            exact (follows_of_matches b h).equal b' clear actual
      | _ => exact absurd actual Bool.false_ne_true
  | .method params ret, h => by
    have same := same_of_matches h (.method params ret)
    refine .of_mentions rfl same fun mentioned a _ actual => ?_
    cases a with
    | method _ _ =>
      rw [reduceEqual_eq mentioned rfl]
      exact .nil
    | _ => exact absurd actual Bool.false_ne_true
  | .generic bound signature, h => by
    have same := same_of_matches h (.generic bound signature)
    refine .of_mentions rfl same fun mentioned a _ actual => ?_
    cases a with
    | generic _ _ =>
      rw [reduceEqual_eq mentioned rfl]
      exact .nil
    | _ => exact absurd actual Bool.false_ne_true

/-- Equating each of some types with the one that it follows succeeds with bounds that hold. -/
theorem boundsHold_each_of_matches {σ τ : Substitution} :
    (us : List JavaType) → Substitution.Matches (Follows c S vars) σ τ → ∀ as,
      (∀ v ∈ vars, JavaType.mentionsAny [v] as = false) →
        JavaType.isSameEach (JavaType.substituteEach τ us) as = true →
          BoundsHold c.table S (c.reduceEqualEach (JavaType.substituteEach σ us) as)
  | [], _, as, _, each => by
    cases as with
    | nil =>
      simp only [JavaType.substituteEach, reduceEqualEach]
      exact .nil
    | cons _ _ => exact absurd each Bool.false_ne_true
  | u :: us, h, as, clear, each => by
    cases as with
    | nil => exact absurd each Bool.false_ne_true
    | cons a as =>
      rw [JavaType.substituteEach, JavaType.isSameEach, Bool.and_eq_true] at each
      have clear (v : String) (hv : v ∈ vars) := Bool.or_eq_false_iff.mp (clear v hv)
      rw [JavaType.substituteEach, reduceEqualEach_cons]
      exact .append ((follows_of_matches u h).argument a (fun v hv => (clear v hv).1) each.1)
        (boundsHold_each_of_matches us h as (fun v hv => (clear v hv).2) each.2)

end

/-! ### Variables -/

/-- A variable follows itself as far as it is not free, or else not considered. -/
theorem follows_var {name : String} (h : name ∈ c.free → name ∈ vars) (upper upper' : JavaType)
    (lower lower' : Option JavaType) :
    Follows c S vars (.var name upper lower) (.var name upper' lower') := by
  refine .of_mentions rfl (fun _ => beq_self_eq_true name) fun mentioned a clear actual => ?_
  have free : name ∈ c.free := List.contains_iff_mem.mp mentioned
  cases a with
  | var actualName _ _ =>
    obtain rfl : name = actualName := beq_iff_eq.mp actual
    have apart := clear name (h free)
    exact absurd apart (by simp [JavaType.mentions])
  | _ => exact absurd actual Bool.false_ne_true

/-- A free variable follows the type that is assigned to it. -/
theorem follows_assigned (assigns : S.Assigns c.free) {name : String} {x : JavaType}
    (found : S.lookup name = some x) (upper : JavaType) (lower : Option JavaType) :
    Follows c S vars (.var name upper lower) x := by
  have free : name ∈ c.free := (assigns.domain name).mp (found ▸ rfl)
  have mentioned : (JavaType.var name upper lower).mentions c.free = true :=
    List.contains_iff_mem.mpr free
  refine .of_mentions rfl (fun closed => ?_) fun _ a _ actual => ?_
  · exact absurd (mentioned.symm.trans closed) (by decide)
  · have reference : a.isPrimitive = false := by
      have kind := assigns.reference name x found
      cases a with
      | primitive p =>
        cases x with
        | primitive q =>
          obtain rfl : q = p := beq_iff_eq.mp actual
          cases q with
          | null => rfl
          | _ => exact absurd kind Bool.false_ne_true
        | _ => exact absurd actual Bool.false_ne_true
      | _ => rfl
    have here : Bound.Holds c.table S ⟨name, .equal, a⟩ := ⟨x, found, actual⟩
    rw [reduceEqual_eq mentioned reference]
    cases a with
    | wildcard _ _ => exact .nil
    | _ => exact .single here

/-- A formal type follows what a substitution of the free variables makes of it. -/
theorem follows_substitute (assigns : S.Assigns c.free) (vars : List String) (f : JavaType) :
    Follows c S vars f (f.substitute S) := by
  have all : Substitution.Matches (Follows c S vars) [] S := by
    intro name upper lower upper' lower'
    unfold Substitution.onVariable
    rw [List.lookup_nil, Option.getD_none]
    cases found : S.lookup name with
    | none =>
      refine follows_var (fun free => ?_) _ _ _ _
      exact absurd ((assigns.domain name).mpr free) (by simp [found])
    | some x => exact follows_assigned assigns found _ _
  have whole := follows_of_matches f all
  rwa [JavaType.substitute_eq_self f fun _ h => absurd h List.not_mem_nil] at whole

/-- Formal types that follow others still do so when they are substituted for parameters. -/
theorem substitutionClosed_follows : SubstitutionClosed (Follows c S c.free) := by
  intro params as bs related u
  refine follows_of_matches u fun name upper lower upper' lower' => ?_
  have both := Substitution.rel_ofParameters related params name
  unfold Substitution.onVariable
  generalize (Substitution.ofParameters params as).lookup name = left at both ⊢
  generalize (Substitution.ofParameters params bs).lookup name = right at both ⊢
  cases both with
  | none => exact follows_var id _ _ _ _
  | some here => exact here

end InferenceContext

end JavaRefactor
