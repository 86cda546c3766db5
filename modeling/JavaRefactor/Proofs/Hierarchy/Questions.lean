import JavaRefactor.Proofs.Hierarchy.CoreClasses
import JavaRefactor.Proofs.Hierarchy.Nesting
import JavaRefactor.Proofs.Hierarchy.Termination

/-!
# The questions that a decision of subtyping asks

The decision of one question of subtyping asks others: for bounds, for elements of arrays, and
for the type arguments of a view (`ClassTable.questions`).  It ends if all of these end
(`ClassTable.ends_of_questions`).  In a graded table each question is smaller than the one it is
asked for: where a lower bound turns the question around, wildcards nest less deep, and otherwise
the two types lose nodes (`ClassTable.Graded.smaller_of_mem_questions`).  So every decision ends
(`ClassTable.isSubtypeIn_ends`).  An acyclic table need not be graded, as a class may stand in a
lower bound of its own supertype, and then a decision can ask itself again
(`ClassTable.not_isSubtypeIn_ends`).
-/

namespace JavaRefactor

/-- The question that decides whether a type argument contains another, if one is asked. -/
def argumentQuestion : JavaType × JavaType → Option (JavaType × JavaType)
  | (.wildcard .upper (some bound), actual) => actual.core?.map fun type => (type, bound)
  | (.wildcard .lower (some bound), actual) => actual.core?.map fun type => (bound, type)
  | _ => none

namespace ClassTable

/-- The questions that the decision of a question asks. -/
def questions (t : ClassTable) : JavaType → JavaType → List (JavaType × JavaType)
  | sub, .var _ _ (some lower) => [(sub, lower)]
  | .var _ upper _, sup => [(upper, sup)]
  | .array a, .array b => [(a, b)]
  | .declared name args, .declared target sups =>
    match t.asSuperWithin (t.size + 1) (.declared name args) target with
    | some (some (.declared _ vs)) => (sups.zip vs).filterMap argumentQuestion
    | _ => []
  | .wildcard .upper (some bound), sup => [(bound, sup)]
  | .wildcard _ _, sup => [(.object, sup)]
  | _, _ => []

variable {t : ClassTable} {unchecked : Bool}

/-- The decision ends, whatever its answer is. -/
def Ends (t : ClassTable) (unchecked : Bool) (q : JavaType × JavaType) : Prop :=
  ∃ n, (t.subtypeWithin unchecked n q.1 q.2).isSome = true

/-- Some decisions that end do so within one number of steps, which may be as large as wanted. -/
theorem exists_forall_ends {qs : List (JavaType × JavaType)}
    (ends : ∀ q ∈ qs, t.Ends unchecked q) (least : Nat) :
    ∃ n, least ≤ n ∧ ∀ q ∈ qs, (t.subtypeWithin unchecked n q.1 q.2).isSome = true := by
  induction qs with
  | nil => exact ⟨least, Nat.le_refl _, fun _ hq => absurd hq List.not_mem_nil⟩
  | cons q qs ih =>
    obtain ⟨⟨m, here⟩, rest⟩ := List.forall_mem_cons.mp ends
    obtain ⟨n, enough, all⟩ := ih rest
    have longer {k : Nat} {q : JavaType × JavaType} (le : k ≤ max m n)
        (h : (t.subtypeWithin unchecked k q.1 q.2).isSome = true) :
        (t.subtypeWithin unchecked (max m n) q.1 q.2).isSome = true := by
      obtain ⟨answer, decided⟩ := Option.isSome_iff_exists.mp h
      rw [t.subtypeWithin_mono unchecked le decided]
      rfl
    refine ⟨max m n, Nat.le_trans enough (Nat.le_max_right m n), List.forall_mem_cons.mpr ?_⟩
    exact ⟨longer (Nat.le_max_left m n) here, fun q hq => longer (Nat.le_max_right m n) (all q hq)⟩

/-- The comparison of type arguments ends if the question does that it asks. -/
theorem containsArgument_isSome_of_question {below : JavaType → JavaType → Option Bool}
    {p : JavaType × JavaType}
    (h : ∀ q, argumentQuestion p = some q → (below q.1 q.2).isSome = true) :
    (containsArgument below p.1 p.2).isSome = true := by
  obtain ⟨formal, actual⟩ := p
  refine containsArgument_isSome ?_ ?_
  · rintro x y rfl core
    exact h (x, y) (by rw [argumentQuestion, core]; rfl)
  · rintro x y rfl core
    exact h (y, x) (by rw [argumentQuestion, core]; rfl)

/-- The decision ends one step after all questions that it asks. -/
theorem subtypeWithin_isSome_of_questions (acyclic : t.Acyclic) (supers : t.ClassSupertypes)
    {n : Nat} (enough : t.size ≤ n) {a b : JavaType}
    (h : ∀ q ∈ t.questions a b, (t.subtypeWithin unchecked n q.1 q.2).isSome = true) :
    (t.subtypeWithin unchecked (n + 1) a b).isSome = true := by
  unfold subtypeWithin
  split
  · rfl
  · split
    · rfl
    · split
      all_goals try rfl
      · -- a variable with a lower bound on the right
        exact h _ (by rw [questions]; exact List.mem_singleton_self _)
      · -- a variable on the left
        rename_i noLower
        refine h (_, b) ?_
        rw [questions]
        · exact List.mem_singleton_self _
        · exact noLower
      · -- two arrays
        split
        · rfl
        · exact h _ (List.mem_singleton_self _)
      · -- two class types
        rename_i name args target sups _ _
        obtain ⟨view, found⟩ := Option.isSome_iff_exists.mp
          (acyclic.asSuperWithin_isSome supers (Nat.lt_succ_self t.size) name args target)
        rw [t.asSuperWithin_mono (Nat.succ_le_succ enough) found, Option.bind_some]
        refine viewFits_isSome fun c vs same p hp => ?_
        refine containsArgument_isSome_of_question fun q asked => h q ?_
        rw [questions, found, same]
        exact List.mem_filterMap.mpr ⟨p, hp, asked⟩
      · -- a wildcard with an upper bound
        rename_i noLower
        refine h (_, b) ?_
        rw [questions]
        · exact List.mem_singleton_self _
        · exact noLower
      · -- another wildcard
        rename_i noUpper _ _ noLower
        refine h (.object, b) ?_
        rw [questions]
        · exact List.mem_singleton_self _
        · exact noUpper
        · exact noLower

/-- The decision ends if all questions end that it asks. -/
theorem ends_of_questions (acyclic : t.Acyclic) (supers : t.ClassSupertypes) {a b : JavaType}
    (h : ∀ q ∈ t.questions a b, t.Ends unchecked q) : t.Ends unchecked (a, b) := by
  obtain ⟨n, enough, all⟩ := exists_forall_ends h t.size
  exact ⟨n + 1, subtypeWithin_isSome_of_questions acyclic supers enough all⟩

end ClassTable

/-! ### Smaller questions -/

namespace JavaType

/-- The number of nodes of a type, where a wildcard counts more than a type that is put in its
place. -/
def extentBelow (t : JavaType) : Nat := 2 * t.size + if t.isWildcard then 1 else 0

/-- Of two types of different sizes, the smaller one counts less, wildcard or not. -/
theorem extentBelow_lt {x t : JavaType} (h : x.size < t.size) : x.extentBelow < t.extentBelow := by
  unfold extentBelow
  split <;> split <;> omega

end JavaType

/-- What makes a question large: how deep lower-bounded wildcards nest in its types, then the nodes
of the type above, then those of the type below. -/
def Grading.measure (g : Grading) (q : JavaType × JavaType) : Nat × Nat × Nat :=
  (q.1.turns g + q.2.turns g, q.2.size, q.1.extentBelow)

/-- A question is smaller than another. -/
def Grading.Smaller (g : Grading) (q p : JavaType × JavaType) : Prop :=
  Prod.Lex (· < ·) (Prod.Lex (· < ·) (· < ·)) (g.measure q) (g.measure p)

namespace Grading

variable {g : Grading} {a b x y : JavaType}

/-- Questions cannot get smaller for ever. -/
theorem wellFounded_smaller (g : Grading) : WellFounded g.Smaller :=
  InvImage.wf g.measure (WellFounded.prod_lex Nat.lt_wfRel.wf
    (WellFounded.prod_lex Nat.lt_wfRel.wf Nat.lt_wfRel.wf))

/-- A question is smaller if lower-bounded wildcards nest less deep in its types. -/
theorem smaller_of_turns (fewer : x.turns g + y.turns g < a.turns g + b.turns g) :
    g.Smaller (x, y) (a, b) := .left _ _ fewer

/-- A question is smaller if the type above has fewer nodes and nothing nests deeper. -/
theorem smaller_above (below : x.turns g ≤ a.turns g) (above : y.turns g ≤ b.turns g)
    (smaller : y.size < b.size) : g.Smaller (x, y) (a, b) := by
  rcases Nat.lt_or_eq_of_le (Nat.add_le_add below above) with fewer | same
  · exact smaller_of_turns fewer
  · rw [Smaller, measure, measure, same]
    exact .right _ (.left _ _ smaller)

/-- A question is smaller if the type above is the same, the type below counts less, and nothing
nests deeper. -/
theorem smaller_below (below : x.turns g ≤ a.turns g)
    (smaller : x.extentBelow < a.extentBelow) : g.Smaller (x, b) (a, b) := by
  rcases Nat.lt_or_eq_of_le (Nat.add_le_add_right below (b.turns g)) with fewer | same
  · exact smaller_of_turns fewer
  · rw [Smaller, measure, measure, same]
    exact .right _ (.right _ smaller)

end Grading

namespace ClassTable

variable {t : ClassTable} {unchecked : Bool} {g : Grading}

/-- What an argument is about counts no deeper than the argument. -/
theorem turns_core {arg x : JavaType} (core : arg.core? = some x) :
    x.turns g ≤ arg.turns g := by
  cases arg with
  | wildcard kind bound =>
    obtain rfl : bound = some x := core
    exact JavaType.nesting_le_wildcard kind x
  | _ =>
    obtain rfl := Option.some.inj core
    exact Nat.le_refl _

/-- The question that decides whether an argument contains one of a view is smaller than the one
for the class type: a lower bound takes a wildcard away, an upper bound is a smaller type. -/
theorem smaller_of_argumentQuestion {a : JavaType} {target : String}
    {sups vs : List JavaType} (view : ∀ v ∈ vs, v.turns g ≤ a.turns g) {p q : JavaType × JavaType}
    (hp : p ∈ sups.zip vs) (asked : argumentQuestion p = some q) :
    g.Smaller q (a, .declared target sups) := by
  obtain ⟨formal, v⟩ := p
  obtain ⟨hformal, hv⟩ := List.of_mem_zip hp
  have counted : formal.turns g ≤ (JavaType.declared target sups).turns g :=
    JavaType.nesting_le_of_mem hformal
  have size_lt : formal.size < (JavaType.declared target sups).size :=
    JavaType.size_lt_of_mem hformal
  have below := view v hv
  unfold argumentQuestion at asked
  split at asked
  · rename_i bound _ same
    obtain ⟨rfl, rfl⟩ := Prod.mk.inj same
    obtain ⟨x, core, rfl⟩ := Option.map_eq_some_iff.mp asked
    refine Grading.smaller_above (Nat.le_trans (turns_core core) below) counted ?_
    exact Nat.lt_trans JavaType.size_lt_wildcard size_lt
  · rename_i bound _ same
    obtain ⟨rfl, rfl⟩ := Prod.mk.inj same
    obtain ⟨x, core, rfl⟩ := Option.map_eq_some_iff.mp asked
    have turned : bound.turns g < (JavaType.wildcard .lower (some bound)).turns g :=
      JavaType.nesting_lt_lower bound
    have about : x.turns g ≤ v.turns g := turns_core core
    exact Grading.smaller_of_turns (by omega)
  · exact absurd asked (by simp)

/-- In a graded table the decision asks smaller questions only. -/
theorem Graded.smaller_of_mem_questions (graded : t.Graded g)
    (supers : t.ClassSupertypes) {a b : JavaType} {q : JavaType × JavaType}
    (h : q ∈ t.questions a b) : g.Smaller q (a, b) := by
  -- A part of a type above or below is smaller and nests no deeper.  Only the argument of a view
  -- may be larger than the type it comes from, and that it nests no deeper is what is graded.
  unfold questions at h
  split at h
  · rename_i name upper lower
    obtain rfl := List.mem_singleton.mp h
    refine Grading.smaller_above (Nat.le_refl _) ?_ ?_
    · exact (JavaType.nesting_bounds name upper (some lower)).2 lower rfl
    · rw [JavaType.size, JavaType.sizeOption]
      omega
  · rename_i name upper lower _
    obtain rfl := List.mem_singleton.mp h
    refine Grading.smaller_below (JavaType.nesting_bounds name upper lower).1
      (JavaType.extentBelow_lt ?_)
    rw [JavaType.size]
    omega
  · rename_i x y
    obtain rfl := List.mem_singleton.mp h
    refine Grading.smaller_above (Nat.le_refl _) (Nat.le_refl _) ?_
    rw [JavaType.size]
    omega
  · rename_i name args target sups
    split at h
    · rename_i found
      obtain ⟨p, hp, asked⟩ := List.mem_filterMap.mp h
      refine smaller_of_argumentQuestion (fun v hv => ?_) hp asked
      exact Nat.le_trans (JavaType.nesting_le_of_mem hv) (graded.turns_view supers found)
    · exact absurd h List.not_mem_nil
  · rename_i bound _
    obtain rfl := List.mem_singleton.mp h
    refine Grading.smaller_below (JavaType.nesting_le_wildcard .upper bound)
      (JavaType.extentBelow_lt JavaType.size_lt_wildcard)
  · rename_i kind bound _ _
    obtain rfl := List.mem_singleton.mp h
    refine Grading.smaller_below ?_ ?_
    · rw [graded.turns_object]
      exact Nat.zero_le _
    · calc JavaType.object.extentBelow
          < 2 * (1 + JavaType.sizeOption bound) + 1 := by
            rw [show JavaType.object.extentBelow = 2 from rfl]
            omega
        _ = (JavaType.wildcard kind bound).extentBelow := by
            rw [JavaType.extentBelow, JavaType.size]
            rfl
  · exact absurd h List.not_mem_nil

/-- In a graded table every decision ends. -/
theorem Graded.ends (graded : t.Graded g) (acyclic : t.Acyclic) (supers : t.ClassSupertypes)
    (unchecked : Bool) (q : JavaType × JavaType) : t.Ends unchecked q := by
  induction q using g.wellFounded_smaller.induction with
  | _ q ih =>
    exact ends_of_questions acyclic supers fun p hp =>
      ih p (graded.smaller_of_mem_questions supers hp)

/-- Over the core classes every decision ends. -/
theorem core_ends (unchecked : Bool) (q : JavaType × JavaType) : core.Ends unchecked q :=
  (graded_plain (by decide +kernel)).ends regular_core.acyclic regular_core.classSupertypes
    unchecked q

/-- Subtyping always answers in an acyclic table that is graded: both forms of the decision end for
all types. -/
theorem isSubtypeIn_ends (acyclic : t.Acyclic) (supers : t.ClassSupertypes) (graded : t.Graded g)
    (unchecked : Bool) (a b : JavaType) :
    ∃ n answer, t.subtypeWithin unchecked n a b = some answer ∧
      t.isSubtypeIn unchecked a b = answer := by
  obtain ⟨n, ends⟩ := graded.ends acyclic supers unchecked (a, b)
  obtain ⟨answer, decided⟩ := Option.isSome_iff_exists.mp ends
  exact ⟨n, answer, decided, isSubtypeIn_of_subtypeWithin decided⟩

/-- Lists that are sorted by comparing their elements, with a declared supertype that nests a
lower-bounded wildcard. -/
def sortedTable : ClassTable :=
  ⟨[⟨"Comparable", ["T"], [], true⟩, ⟨"List", ["E"], [], true⟩,
    ⟨"Sorted", ["T"],
      [.declared "List" [.declared "Comparable" [.wildcard .lower (some (.freeVariable "T"))]]],
      false⟩]⟩

/-- A sorted list counts one deeper than its elements. -/
def sortedGrading : Grading where
  depth name m := if name = "Sorted" then m + 1 else m
  le_depth name m := by split <;> omega
  depth_mono name m n le := by
    dsimp only
    split <;> omega

/-- The table of sorted lists is graded. -/
theorem graded_sortedTable : sortedTable.Graded sortedGrading := by
  refine graded_of_forall_mem rfl ?_
  simp only [sortedTable, List.forall_mem_cons, List.not_mem_nil, IsEmpty.forall_iff,
    implies_true, true_and, and_true]
  intro m
  simp [JavaType.nesting, JavaType.nestingEach, JavaType.nestingOption, JavaType.freeVariable,
    JavaType.object, sortedGrading, ClassDecl.parametersAt, JavaType.objectName]

/-- Sorted lists of texts, in a sorted list. -/
def sortedLists : JavaType := .declared "Sorted" [.declared "Sorted" [.string]]

/-- Lists of what is above the types that compare to all objects. -/
def listsOfComparables : JavaType :=
  .declared "List"
    [.wildcard .lower (some (.declared "Comparable" [.wildcard .lower (some .object)]))]

/-- Whether a sorted list of sorted lists is such a list is decided, where the question turns around
twice. -/
theorem isSubtypeIn_ends_sorted :
    ∃ n answer, sortedTable.subtypeWithin true n sortedLists listsOfComparables = some answer ∧
      sortedTable.isSubtypeIn true sortedLists listsOfComparables = answer :=
  isSubtypeIn_ends
    (acyclic_of_rank (fun name => if name = "Sorted" then 1 else 0)
      (by simp [sortedTable, JavaType.className?]))
    (classSupertypes_of_forall_mem (by simp [sortedTable])) graded_sortedTable true _ _

/-- A class whose declared supertype mentions the class itself in a lower bound. -/
def contravariantTable : ClassTable :=
  ⟨[⟨"N", ["Z"], [], true⟩,
    ⟨"C", [], [.declared "N" [.declared "N" [.wildcard .lower (some (.ofClass "C"))]]], false⟩]⟩

/-- The question whether the class is below `N<? super C>` is asked again by its own decision, so
that no number of steps is enough, although the table is acyclic. -/
theorem not_isSubtypeIn_ends :
    contravariantTable.Acyclic ∧ contravariantTable.ClassSupertypes ∧
      ∀ unchecked n, contravariantTable.subtypeWithin unchecked n (.ofClass "C")
        (.declared "N" [.wildcard .lower (some (.ofClass "C"))]) = none := by
  refine ⟨acyclic_of_rank (fun name => if name = "C" then 1 else 0)
      (by simp [contravariantTable, JavaType.className?]),
    classSupertypes_of_forall_mem (by simp [contravariantTable]), fun unchecked n => ?_⟩
  induction n with
  | zero => rfl
  | succ n ih =>
    cases n with
    | zero => rfl
    | succ n =>
      -- the lower bound turns the question around, and it is the same again
      have asked : containsArgument (contravariantTable.subtypeWithin unchecked (n + 1))
          (.wildcard .lower (some (.ofClass "C")))
          (.declared "N" [.wildcard .lower (some (.ofClass "C"))]) = none := ih
      change allPairs (containsArgument (contravariantTable.subtypeWithin unchecked (n + 1)))
        [(.wildcard .lower (some (.ofClass "C")),
          .declared "N" [.wildcard .lower (some (.ofClass "C"))])] = none
      rw [allPairs, asked]

end ClassTable

end JavaRefactor
