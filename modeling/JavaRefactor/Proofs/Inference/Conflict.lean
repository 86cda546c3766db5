import JavaRefactor.Hierarchy.CoreClasses
import JavaRefactor.Proofs.Inference.Boxing

/-!
# Conflicts between bounds

Reduction takes the types of its bounds from the actual types: it passes to their parts, to wrappers
of primitive types and to views (`ClassTable.Sees`, `InferenceContext.yields_reduce`).  Resolution
compares the equality bounds of a variable node by node, bounds of type variables included,
although a type variable is the same whatever bounds it stands with.  So the types of a conflict
are different, or a type variable stands in them with different bounds
(`InferenceContext.instantiate_conflict`); in the second case the conflict may name one type twice
(`InferenceContext.not_instantiate_conflict`).
-/

namespace JavaRefactor

/-- The types that inference can come to from some actual types. -/
inductive ClassTable.Sees (t : ClassTable) (actuals : List JavaType) : JavaType → Prop where
  | actual {a : JavaType} : a ∈ actuals → Sees t actuals a
  | part {a x : JavaType} : Sees t actuals a → x ∈ a.parts → Sees t actuals x
  | wrapper {a w : JavaType} : Sees t actuals a → a.boxed? = some w → Sees t actuals w
  | view {a v : JavaType} {name : String} : Sees t actuals a → t.asSuper? a name = some v →
      Sees t actuals v

namespace InferenceContext

/-- What reduction may end with: bounds whose equality types can be seen, or a failure that is no
conflict. -/
def Yields (P : JavaType → Prop) : Except InferenceError (List Bound) → Prop
  | .ok bounds => ∀ b ∈ bounds, b.kind = .equal → P b.type
  | .error e => ∀ v first second, e ≠ .conflict v first second

namespace Yields

variable {P : JavaType → Prop} {x y : Except InferenceError (List Bound)}

/-- No bounds are fine. -/
theorem nothing : Yields P (.ok []) := fun _ hb => absurd hb List.not_mem_nil

/-- A failure because two types do not go together is no conflict. -/
theorem incompatible (f a : JavaType) : Yields P (.error (.incompatible f a)) :=
  fun _ _ _ same => InferenceError.noConfusion same

/-- Two reductions in turn yield what both yield. -/
theorem append (hx : Yields P x) (hy : Yields P y) :
    Yields P (do let here ← x; let others ← y; return here ++ others) := by
  cases x with
  | error e => exact hx
  | ok here =>
    cases y with
    | error e => exact hy
    | ok others =>
      intro b hb
      rcases List.mem_append.mp hb with hb | hb
      · exact hx b hb
      · exact hy b hb

end Yields

variable {c : InferenceContext} {actuals : List JavaType} {f a : JavaType}

/-! ### Equality -/

section Equality

variable {P : JavaType → Prop}

/-- Lists of type arguments are equated to types that can be seen if their members are. -/
theorem yields_reduceEqualEach {fs as : List JavaType}
    (each : ∀ f ∈ fs, ∀ a, P a → Yields P (c.equateArguments f a)) (seen : ∀ a ∈ as, P a) :
    Yields P (c.reduceEqualEach fs as) := by
  induction fs generalizing as with
  | nil =>
    rw [reduceEqualEach_nil (.inl rfl)]
    exact .nothing
  | cons f fs ih =>
    obtain ⟨here, others⟩ := List.forall_mem_cons.mp each
    cases as with
    | nil =>
      rw [reduceEqualEach_nil (.inr rfl)]
      exact .nothing
    | cons a as =>
      obtain ⟨ha, has⟩ := List.forall_mem_cons.mp seen
      rw [reduceEqualEach_cons]
      exact (here a ha).append (ih others has)

/-- Type arguments are equated to types that can be seen if types of at most their size are. -/
theorem yields_equateArguments (parts : ∀ t, P t → ∀ x ∈ t.parts, P x)
    (smaller : ∀ g : JavaType, g.size ≤ f.size → ∀ a, P a → Yields P (c.reduceEqual g a))
    (seen : P a) : Yields P (c.equateArguments f a) := by
  unfold equateArguments
  split
  · split
    · exact smaller _ (Nat.le_of_lt JavaType.size_lt_wildcard) _ (parts _ seen _ List.mem_cons_self)
    · exact .nothing
  · exact .nothing
  · exact .nothing
  · exact smaller _ (Nat.le_refl _) _ seen

/-- Equality records types that can be seen. -/
theorem yields_reduceEqual (parts : ∀ t, P t → ∀ x ∈ t.parts, P x) (f a : JavaType)
    (seen : P a) : Yields P (c.reduceEqual f a) := by
  -- what is recorded is a part of the actual type, and it can be seen with that
  have forms : Yields P (c.equateForms f a) := by
    cases f with
    | var name _ _ =>
      have recorded : Yields P (.ok [⟨name, .equal, a⟩]) := by
        intro b hb _
        obtain rfl := List.mem_singleton.mp hb
        exact seen
      cases a with
      | wildcard _ _ => exact .nothing
      | _ => exact recorded
    | declared name args =>
      have each (f : JavaType) (hf : f ∈ args) (a : JavaType) (seen : P a) :
          Yields P (c.equateArguments f a) :=
        yields_equateArguments parts (fun g _ a seen => yields_reduceEqual parts g a seen) seen
      cases a with
      | declared other others =>
        unfold equateForms
        dsimp only
        split
        · exact yields_reduceEqualEach each (parts _ seen)
        · exact .incompatible _ _
      | _ => exact .incompatible _ _
    | array element =>
      cases a with
      | array other =>
        exact yields_reduceEqual parts element other (parts _ seen other List.mem_cons_self)
      | _ => exact .incompatible _ _
    | _ => cases a <;> exact .nothing
  rw [reduceEqual_step]
  split
  · split
    · exact .nothing
    · exact .incompatible _ _
  · split
    · exact .incompatible _ _
    · exact forms
termination_by f.size
decreasing_by
  · subst_vars
    exact Nat.lt_of_le_of_lt ‹_› (JavaType.size_lt_of_mem hf)
  · subst_vars
    exact Nat.lt_add_of_pos_left Nat.one_pos

/-- Bounds are recorded for pairs of types one after the other, wildcards left out. -/
theorem yields_foldlM {ps : List (JavaType × JavaType)} {bounds : List Bound}
    (before : Yields P (.ok bounds)) (each : ∀ p ∈ ps, Yields P (c.reduceEqual p.1 p.2)) :
    Yields P (ps.foldlM
      (fun bounds (f, a) =>
        match a with
        | .wildcard _ _ => .ok bounds
        | a => (bounds ++ ·) <$> c.reduceEqual f a) bounds) := by
  induction ps generalizing bounds with
  | nil => exact before
  | cons p ps ih =>
    obtain ⟨f, a⟩ := p
    obtain ⟨here, others⟩ := List.forall_mem_cons.mp each
    rw [List.foldlM_cons]
    cases a with
    | wildcard _ _ => exact ih before others
    | _ =>
      dsimp only at here ⊢
      revert here
      cases c.reduceEqual f _ with
      | error e => exact id
      | ok more =>
        exact fun here => ih (fun b hb => (List.mem_append.mp hb).elim (before b) (here b)) others

/-- Where an actual class type has to be above the formal one, its arguments are recorded. -/
theorem yields_reduceAbove (parts : ∀ t, P t → ∀ x ∈ t.parts, P x) (seen : P a) :
    Yields P (c.reduceAbove f a) := by
  unfold reduceAbove
  split
  · split
    · split
      · exact .nothing
      · exact yields_foldlM .nothing fun p hp =>
          yields_reduceEqual parts p.1 p.2 (parts _ seen p.2 (List.of_mem_zip hp).2)
    · exact .incompatible _ _
  · exact .incompatible _ _

end Equality

/-! ### The other relations -/

/-- Lists of type arguments are compared with types that can be seen if their members are. -/
theorem yields_reduceArguments {P : JavaType → Prop} {fs as : List JavaType}
    (each : ∀ f ∈ fs, ∀ a, P a → Yields P (c.compareArguments f a)) (seen : ∀ a ∈ as, P a) :
    Yields P (c.reduceArguments fs as) := by
  induction fs generalizing as with
  | nil =>
    rw [reduceArguments_nil (.inl rfl)]
    exact .nothing
  | cons f fs ih =>
    obtain ⟨here, others⟩ := List.forall_mem_cons.mp each
    cases as with
    | nil =>
      rw [reduceArguments_nil (.inr rfl)]
      exact .nothing
    | cons a as =>
      obtain ⟨ha, has⟩ := List.forall_mem_cons.mp seen
      rw [reduceArguments_cons]
      exact (here a ha).append (ih others has)

/-- Type arguments are compared with types that can be seen if smaller types are. -/
theorem yields_compareArguments
    (smaller : ∀ g : JavaType, g.size < f.size → ∀ conversion a, c.table.Sees actuals a →
      Yields (c.table.Sees actuals) (c.reduce conversion g a))
    (seen : c.table.Sees actuals a) :
    Yields (c.table.Sees actuals) (c.compareArguments f a) := by
  unfold compareArguments
  split
  · rename_i kind bound
    unfold reduceWildcard
    split
    · exact .nothing
    · split
      · exact smaller _ JavaType.size_lt_wildcard _ _ (seen.part List.mem_cons_self)
      · exact smaller _ JavaType.size_lt_wildcard _ _ (seen.part List.mem_cons_self)
      · exact .nothing
      · exact smaller _ JavaType.size_lt_wildcard _ _ seen
      · exact smaller _ JavaType.size_lt_wildcard _ _ seen
      · exact .nothing
  · split
    · exact .nothing
    · exact yields_reduceEqual (fun _ seen _ => seen.part) _ _ seen

/-- A primitive argument is replaced by its wrapper or refused, and a reference stays. -/
theorem boxActual_cases (c : InferenceContext) (conversion : Conversion) (f a : JavaType) :
    c.boxActual conversion f a = .ok a ∨
      (∃ wrapper, a.boxed? = some wrapper ∧ c.boxActual conversion f a = .ok wrapper) ∨
        c.boxActual conversion f a = .error (.incompatible f a) := by
  unfold boxActual
  split
  · split
    · rename_i wrapper boxed
      split
      · exact .inr (.inl ⟨wrapper, boxed, rfl⟩)
      · exact .inr (.inr rfl)
    · exact .inr (.inr rfl)
  · exact .inl rfl

/-- Reduction records types that can be seen, and fails with no conflict. -/
theorem yields_reduce (conversion : Conversion) (f a : JavaType) (seen : c.table.Sees actuals a) :
    Yields (c.table.Sees actuals) (c.reduce conversion f a) := by
  have forms (b : JavaType) (seen : c.table.Sees actuals b) :
      Yields (c.table.Sees actuals) (c.compareForms conversion f b) := by
    cases f with
    | var name _ _ =>
      -- the bound of a variable that is compared is no equality
      have recorded : Yields (c.table.Sees actuals) (.ok [⟨name, conversion.boundKind, b⟩]) := by
        intro bound hbound equal
        obtain rfl := List.mem_singleton.mp hbound
        cases conversion <;> exact absurd equal BoundKind.noConfusion
      cases b with
      | wildcard _ _ => exact .nothing
      | _ => exact recorded
    | declared name args =>
      have each (f : JavaType) (hf : f ∈ args) (a : JavaType) (seen : c.table.Sees actuals a) :
          Yields (c.table.Sees actuals) (c.compareArguments f a) :=
        yields_compareArguments
          (fun g _ conversion a seen => yields_reduce conversion g a seen) seen
      have view : Yields (c.table.Sees actuals)
          (c.compareForms .subtype (.declared name args) b) := by
        unfold compareForms
        dsimp only
        split
        · rename_i found
          split
          · exact .nothing
          · split
            · exact .incompatible _ _
            · exact yields_reduceArguments each fun _ => (seen.view found).part
        · exact .incompatible _ _
      cases conversion with
      | supertype => exact yields_reduceAbove (fun _ seen _ => seen.part) seen
      | loose => exact view
      | subtype => exact view
    | array element =>
      cases b with
      | array other =>
        have inner := seen.part (x := other) List.mem_cons_self
        unfold compareForms
        dsimp only
        split
        · exact yields_reduceEqual (fun _ seen _ => seen.part) _ _ inner
        · exact yields_reduce .subtype element other inner
      | _ => exact .incompatible _ _
    | _ => exact .nothing
  rw [reduce_step]
  split
  · split
    · exact .nothing
    · exact .incompatible _ _
  · split
    · exact .nothing
    · rcases c.boxActual_cases conversion f a with same | ⟨wrapper, boxed, replaced⟩ | refused
      · rw [same]
        exact forms a seen
      · rw [replaced]
        exact forms wrapper (seen.wrapper boxed)
      · rw [refused]
        exact .incompatible _ _
termination_by f.size
decreasing_by
  · subst_vars
    exact Nat.lt_trans ‹_› (JavaType.size_lt_of_mem hf)
  · subst_vars
    exact Nat.lt_add_of_pos_left Nat.one_pos

/-- Comparing all arguments yields bounds of types that can be seen. -/
theorem yields_reduceAll {ps : List (JavaType × JavaType)}
    (seen : ∀ p ∈ ps, c.table.Sees actuals p.2) :
    Yields (c.table.Sees actuals) (c.reduceAll ps) := by
  induction ps with
  | nil => exact .nothing
  | cons p ps ih =>
    obtain ⟨here, others⟩ := List.forall_mem_cons.mp seen
    exact (yields_reduce .loose p.1 p.2 here).append (ih others)

/-! ### Resolution -/

/-- A conflict is one between the first equality bound of a variable and another. -/
theorem candidate_eq_conflict {bounds : List Bound} {var v : String} {first second : JavaType}
    (h : c.candidate bounds var = .error (.conflict v first second)) :
    v = var ∧ first ∈ boundTypes bounds var .equal ∧ second ∈ boundTypes bounds var .equal ∧
      first ≠ second := by
  unfold candidate at h
  split at h
  · rename_i t rest equals
    split at h
    · rename_i other found
      injection h with h
      injection h with named same same'
      subst named same same'
      have differ := List.find?_some found
      rw [equals]
      refine ⟨rfl, List.mem_cons_self, List.mem_cons_of_mem _ (List.mem_of_find?_eq_some found), ?_⟩
      exact (bne_iff_ne.mp differ).symm
    · cases h
  · split at h
    · cases h
    · split at h
      · cases h
      · injection h with h
        cases h

/-- The types of the bounds of a variable are the types of some bounds. -/
theorem mem_of_mem_boundTypes {bounds : List Bound} {var : String} {kind : BoundKind}
    {type : JavaType} (h : type ∈ boundTypes bounds var kind) : ⟨var, kind, type⟩ ∈ bounds := by
  obtain ⟨b, hb, found⟩ := List.mem_filterMap.mp h
  split at found
  · rename_i named
    obtain ⟨rfl, rfl⟩ := named
    obtain rfl := Option.some.inj found
    exact hb
  · cases found

/-- Resolution fails as it does for one of the variables. -/
theorem exists_of_resolveAll_error {bounds : List Bound} {e : InferenceError}
    (h : c.resolveAll bounds = .error e) : ∃ v ∈ c.free, c.resolve bounds v = .error e := by
  have each (vars : List String)
      (h : vars.mapM (fun v => do return (v, ← c.resolve bounds v)) = .error e) :
      ∃ v ∈ vars, c.resolve bounds v = .error e := by
    induction vars with
    | nil => cases h
    | cons v vars ih =>
      rw [List.mapM_cons] at h
      rcases Except.bind_eq_error h with h | ⟨entry, -, h⟩
      · rcases Except.bind_eq_error h with h | ⟨_, -, h⟩
        · exact ⟨v, List.mem_cons_self, h⟩
        · cases h
      · rcases Except.bind_eq_error h with h | ⟨_, -, h⟩
        · obtain ⟨w, hw, h⟩ := ih h
          exact ⟨w, List.mem_cons_of_mem v hw, h⟩
        · cases h
  exact each c.free h

/-- A conflict is one between two equality bounds that reduction has recorded for a variable. -/
theorem exists_of_instantiate_conflict {params : List JavaType} {ret : JavaType} {v : String}
    {first second : JavaType}
    (h : c.instantiate params ret actuals = .error (.conflict v first second)) :
    ∃ bounds, c.reduceAll (params.zip actuals) = .ok bounds ∧
      first ∈ boundTypes bounds v .equal ∧ second ∈ boundTypes bounds v .equal ∧
        first ≠ second := by
  unfold instantiate at h
  split at h
  · cases h
  · rcases Except.bind_eq_error h with failed | ⟨bounds, reduced, h⟩
    · -- reduction fails with no conflict
      have seen : Yields (c.table.Sees actuals) (c.reduceAll (params.zip actuals)) :=
        yields_reduceAll fun p hp => .actual (List.of_mem_zip hp).2
      rw [failed] at seen
      exact absurd rfl (seen v first second)
    · refine ⟨bounds, reduced, ?_⟩
      rcases Except.bind_eq_error h with failed | ⟨solved, -, h⟩
      · obtain ⟨var, -, failed⟩ := exists_of_resolveAll_error failed
        rcases Except.bind_eq_error failed with conflict | ⟨solution, -, failed⟩
        · obtain ⟨rfl, conflict⟩ := candidate_eq_conflict conflict
          exact conflict
        · split at failed
          · cases failed
          · cases failed
      · dsimp only at h
        split at h
        · cases h
        · cases h

/-- A conflict is one between types that can be seen in the actual types.  If they are the same
type, then some type variable stands in them with different bounds. -/
theorem instantiate_conflict {params : List JavaType} {ret : JavaType} {v : String}
    {first second : JavaType}
    (h : c.instantiate params ret actuals = .error (.conflict v first second)) :
    c.table.Sees actuals first ∧ c.table.Sees actuals second ∧
      (first.isSame second = true → ∃ name u l u' l',
        first.HasPart (.var name u l) ∧ second.HasPart (.var name u' l') ∧ (u, l) ≠ (u', l')) := by
  obtain ⟨bounds, reduced, hfirst, hsecond, differ⟩ := exists_of_instantiate_conflict h
  have seen : Yields (c.table.Sees actuals) (c.reduceAll (params.zip actuals)) :=
    yields_reduceAll fun p hp => .actual (List.of_mem_zip hp).2
  rw [reduced] at seen
  refine ⟨seen _ (mem_of_mem_boundTypes hfirst) rfl, seen _ (mem_of_mem_boundTypes hsecond) rfl, ?_⟩
  intro same
  by_contra one
  push Not at one
  refine differ (JavaType.eq_of_isSame_of_parts (P := first.HasPart) (Q := second.HasPart)
    (fun _ reached _ => reached.tail) (fun _ reached _ => reached.tail) ?_ first second .refl .refl
    same)
  intro name u l u' l' left right
  exact Prod.mk.inj (one name u l u' l' left right)

/-- Inference of the element type of two lists, where only lists are known. -/
def listContext : InferenceContext := ⟨⟨[⟨"List", ["E"], [], true⟩]⟩, true, ["T"]⟩

/-- A list type. -/
def listOf (element : JavaType) : JavaType := .declared "List" [element]

/-- Lists of lists of `X` and lists of `X` are in conflict, and both element types can be seen. -/
theorem instantiate_conflict_lists :
    listContext.instantiate [listOf (.freeVariable "T"), listOf (.freeVariable "T")]
        (.freeVariable "T") [listOf (listOf (.freeVariable "X")), listOf (.freeVariable "X")]
      = .error (.conflict "T" (listOf (.freeVariable "X")) (.freeVariable "X")) ∧
    listContext.table.Sees [listOf (listOf (.freeVariable "X")), listOf (.freeVariable "X")]
        (listOf (.freeVariable "X")) ∧
      listContext.table.Sees [listOf (listOf (.freeVariable "X")), listOf (.freeVariable "X")]
        (.freeVariable "X") := by
  have conflict : listContext.instantiate [listOf (.freeVariable "T"), listOf (.freeVariable "T")]
      (.freeVariable "T") [listOf (listOf (.freeVariable "X")), listOf (.freeVariable "X")]
        = .error (.conflict "T" (listOf (.freeVariable "X")) (.freeVariable "X")) := rfl
  obtain ⟨first, second, -⟩ := instantiate_conflict conflict
  exact ⟨conflict, first, second⟩

/-- A variable that compares to itself, as it is declared. -/
def comparableVariable : JavaType :=
  .var "X" (.declared "java.lang.Comparable" [.freeVariable "X"]) none

/-- The comparisons of a list of `X` and of an `X` are in conflict: the bound of `X` names the
variable without the bound, and the two are compared with their bounds. -/
theorem not_instantiate_conflict :
    (⟨.core, true, ["T"]⟩ : InferenceContext).instantiate
        [.declared "java.util.List" [.freeVariable "T"],
          .declared "java.lang.Comparable" [.freeVariable "T"]] (.primitive .void)
        [.declared "java.util.List" [comparableVariable], comparableVariable]
      = .error (.conflict "T" comparableVariable (.freeVariable "X")) ∧
    comparableVariable.isSame (.freeVariable "X") = true :=
  ⟨rfl, by decide⟩

end InferenceContext

end JavaRefactor
