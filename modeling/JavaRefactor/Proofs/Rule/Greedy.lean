import JavaRefactor.Proofs.Rule.Statement
import JavaRefactor.Proofs.Template.Accepted
import Mathlib.Data.List.Perm.Basic

/-!
# The greedy scan of a block

A block template is tried at the statements of a block from left to right, and after a match the
scan goes on behind it.  So the windows that it finds lie apart and in order, and what it passes
over does not match (`BlockTemplate.greedyWindows_scan`).  A rule with one template goes through
blocks by a scan of its own, which also goes into the statements that it passes over.  In each
block it finds the same windows (`RefactoringRule.scanStmt_block`), so what it reports in a
unit are the windows of the blocks that it visits (`RefactoringRule.perm_scanStmt`).
-/

namespace JavaRefactor

/-! ### Windows -/

/-- A position in a block lies in the window of a match. -/
def BlockMatch.Covers (m : BlockMatch) (i : Nat) : Prop := m.start ≤ i ∧ i < m.stop

instance (m : BlockMatch) (i : Nat) : Decidable (m.Covers i) :=
  inferInstanceAs (Decidable (_ ∧ _))

namespace BlockTemplate

variable {t : BlockTemplate} {c : MatchContext}

/-- The statements of a block that the template is compared with at a position. -/
def window (t : BlockTemplate) (stmts : List Stmt) (i : Nat) : List Stmt :=
  (stmts.drop i).take t.width

/-- What a greedy scan from left to right finds among some statements. -/
structure GreedyWindows (t : BlockTemplate) (c : MatchContext) (stmts : List Stmt)
    (found : List BlockMatch) : Prop where
  /-- Every window has the width of the template and lies within the statements. -/
  fits : ∀ m ∈ found, m.stmts = t.window stmts m.start ∧ m.start + t.width ≤ stmts.length
  /-- Every window matches. -/
  accepted : ∀ m ∈ found, t.matchRun? c m.stmts = some m.bindings
  /-- The windows are in order, and no two overlap. -/
  ordered : found.Pairwise fun m m' => m.stop ≤ m'.start
  /-- Where no window lies, none of the width of the template matches. -/
  rejected : ∀ i, (∀ m ∈ found, ¬ m.Covers i) → i + t.width ≤ stmts.length →
    t.matchRun? c (t.window stmts i) = none

/-- A template of no statements matches nothing. -/
theorem matchRun?_nil : t.matchRun? c [] = none := by
  refine Option.eq_none_iff_forall_ne_some.mpr fun b h => ?_
  obtain ⟨_, span, -, ends, -⟩ := matchRun?_eq_some_iff.mp h
  cases ends

/-- A match at the front of some statements is a window of them. -/
theorem matchFront?_eq_some {start : Nat} {stmts : List Stmt} {m : BlockMatch}
    (h : t.matchFront? c start stmts = some m) :
    m.start = start ∧ m.stmts = stmts.take t.width ∧ t.width ≤ stmts.length ∧ 0 < t.width ∧
      m.stop = start + t.width ∧ t.matchRun? c m.stmts = some m.bindings := by
  unfold matchFront? at h
  obtain ⟨fits, h⟩ := Option.ite_none_right_eq_some.mp h
  obtain ⟨b, hb, rfl⟩ := Option.map_eq_some_iff.mp h
  refine ⟨rfl, rfl, fits, ?_, ?_, hb⟩
  · refine Nat.pos_of_ne_zero fun empty => ?_
    rw [empty, List.take_zero, matchRun?_nil] at hb
    cases hb
  · rw [BlockMatch.stop, List.length_take, Nat.min_eq_left fits]

/-- A scan that passes over some statements finds windows behind them only. -/
theorem le_start_of_mem_scanFrom {stmts : List Stmt} {start skip : Nat} {m : BlockMatch}
    (hm : m ∈ t.scanFrom c start skip stmts) : start + skip ≤ m.start := by
  induction stmts generalizing start skip with
  | nil => exact absurd hm List.not_mem_nil
  | cons s stmts ih =>
    cases skip with
    | succ skip =>
      have behind := ih hm
      omega
    | zero =>
      rw [scanFrom] at hm
      cases hfront : t.matchFront? c start (s :: stmts) with
      | none =>
        rw [hfront] at hm
        have behind := ih hm
        omega
      | some found =>
        rw [hfront] at hm
        rcases List.mem_cons.mp hm with rfl | hm
        · exact Nat.le_of_eq (matchFront?_eq_some hfront).1.symm
        · have behind := ih hm
          omega

/-- What a scan finds matches at the front of the statements from some position on. -/
theorem matchFront?_of_mem_scanFrom {stmts : List Stmt} {start skip : Nat} {m : BlockMatch}
    (hm : m ∈ t.scanFrom c start skip stmts) :
    ∃ k, m.start = start + k ∧ t.matchFront? c (start + k) (stmts.drop k) = some m := by
  induction stmts generalizing start skip with
  | nil => exact absurd hm List.not_mem_nil
  | cons s stmts ih =>
    have later {skip : Nat} (hm : m ∈ t.scanFrom c (start + 1) skip stmts) :
        ∃ k, m.start = start + k ∧
          t.matchFront? c (start + k) ((s :: stmts).drop k) = some m := by
      obtain ⟨k, at_k, found⟩ := ih hm
      rw [Nat.add_right_comm, Nat.add_assoc] at at_k found
      exact ⟨k + 1, at_k, found⟩
    cases skip with
    | succ skip => exact later hm
    | zero =>
      rw [scanFrom] at hm
      cases hfront : t.matchFront? c start (s :: stmts) with
      | none =>
        rw [hfront] at hm
        exact later hm
      | some found =>
        rw [hfront] at hm
        rcases List.mem_cons.mp hm with rfl | hm
        · exact ⟨0, (matchFront?_eq_some hfront).1, hfront⟩
        · exact later hm

/-- The windows of a scan are in order, and no two overlap. -/
theorem pairwise_scanFrom (stmts : List Stmt) (start skip : Nat) :
    (t.scanFrom c start skip stmts).Pairwise fun m m' => m.stop ≤ m'.start := by
  induction stmts generalizing start skip with
  | nil => exact .nil
  | cons s stmts ih =>
    cases skip with
    | succ skip => exact ih (start + 1) skip
    | zero =>
      rw [scanFrom]
      cases hfront : t.matchFront? c start (s :: stmts) with
      | none => exact ih (start + 1) 0
      | some found =>
        obtain ⟨-, -, -, wide, stop, -⟩ := matchFront?_eq_some hfront
        refine List.pairwise_cons.mpr ⟨fun m hm => ?_, ih (start + 1) (t.width - 1)⟩
        have behind := le_start_of_mem_scanFrom hm
        omega

/-- A scan only passes over positions where the template does not match. -/
theorem matchRun?_of_not_covered {stmts : List Stmt} {start skip k : Nat} (le : skip ≤ k)
    (fits : k + t.width ≤ stmts.length)
    (free : ∀ m ∈ t.scanFrom c start skip stmts, ¬ m.Covers (start + k)) :
    t.matchRun? c (t.window stmts k) = none := by
  induction stmts generalizing start skip k with
  | nil =>
    obtain ⟨rfl, empty⟩ : k = 0 ∧ t.width = 0 := Nat.add_eq_zero_iff.mp (Nat.le_zero.mp fits)
    rw [window, empty, List.take_zero, matchRun?_nil]
  | cons s stmts ih =>
    cases skip with
    | succ skip =>
      obtain ⟨k, rfl⟩ : ∃ n, k = n + 1 := ⟨k - 1, by omega⟩
      rw [List.length_cons] at fits
      rw [scanFrom, ← Nat.add_assoc, Nat.add_right_comm] at free
      exact ih (by omega) (by omega) free
    | zero =>
      rw [scanFrom] at free
      cases hfront : t.matchFront? c start (s :: stmts) with
      | some found =>
        rw [hfront] at free
        obtain ⟨at_start, -, -, wide, stop, -⟩ := matchFront?_eq_some hfront
        obtain ⟨apart, free⟩ := List.forall_mem_cons.mp free
        -- the window that is found covers the positions up to its end
        have behind : t.width ≤ k := by
          by_contra inside
          exact apart ⟨by omega, by omega⟩
        obtain ⟨k, rfl⟩ : ∃ n, k = n + 1 := ⟨k - 1, by omega⟩
        rw [List.length_cons] at fits
        rw [← Nat.add_assoc, Nat.add_right_comm] at free
        exact ih (by omega) (by omega) free
      | none =>
        rw [hfront] at free
        cases k with
        | zero =>
          rw [matchFront?, if_pos (by omega), Option.map_eq_none_iff] at hfront
          exact hfront
        | succ k =>
          rw [List.length_cons] at fits
          rw [← Nat.add_assoc, Nat.add_right_comm] at free
          exact ih (Nat.zero_le k) (by omega) free

/-- The windows that a scan of a block finds are those of a greedy scan. -/
theorem greedyWindows_scan (t : BlockTemplate) (c : MatchContext) (stmts : List Stmt) :
    t.GreedyWindows c stmts (t.scan c stmts) := by
  have front {m : BlockMatch} (hm : m ∈ t.scan c stmts) :
      t.matchFront? c m.start (stmts.drop m.start) = some m := by
    obtain ⟨k, at_k, found⟩ := matchFront?_of_mem_scanFrom hm
    rw [Nat.zero_add] at at_k found
    rwa [at_k]
  constructor
  · intro m hm
    obtain ⟨-, window, fits, wide, -⟩ := matchFront?_eq_some (front hm)
    rw [List.length_drop] at fits
    exact ⟨window, by omega⟩
  · intro m hm
    obtain ⟨-, -, -, -, -, accepted⟩ := matchFront?_eq_some (front hm)
    exact accepted
  · exact pairwise_scanFrom stmts 0 0
  · intro i free fits
    have free : ∀ m ∈ t.scanFrom c 0 0 stmts, ¬ m.Covers (0 + i) := by
      rwa [Nat.zero_add]
    exact matchRun?_of_not_covered (Nat.zero_le i) fits free

/-- A template of no statements finds nothing. -/
theorem scan_eq_nil {t : BlockTemplate} (empty : t.stmts = []) (c : MatchContext)
    (stmts : List Stmt) : t.scan c stmts = [] := by
  have windows := t.greedyWindows_scan c stmts
  refine List.eq_nil_iff_forall_not_mem.mpr fun m hm => ?_
  have accepted := windows.accepted m hm
  rw [(windows.fits m hm).1, window, width, empty, List.length_nil, List.take_zero,
    matchRun?_nil] at accepted
  cases accepted

end BlockTemplate

/-! ### Rules -/

/-- A list sorted by a number of its members is a rearrangement of the list. -/
theorem perm_flatMap_filter {α : Type} (f : α → Nat) (n : Nat) (l : List α)
    (bounded : ∀ a ∈ l, f a < n) :
    ((List.range n).flatMap fun i => l.filter (f · = i)).Perm l := by
  induction n generalizing l with
  | zero =>
    cases l with
    | nil => exact .nil
    | cons a l => exact absurd (bounded a List.mem_cons_self) (Nat.not_lt_zero _)
  | succ n ih =>
    rw [List.range_succ, List.flatMap_append, List.flatMap_singleton]
    have below : ((List.range n).flatMap fun i => l.filter (f · = i)).Perm
        (l.filter (f · < n)) := by
      have each : ((List.range n).flatMap fun i => l.filter (f · = i))
          = (List.range n).flatMap fun i => (l.filter (f · < n)).filter (f · = i) := by
        refine List.flatMap_congr fun i hi => ?_
        rw [List.filter_filter]
        refine List.filter_congr fun a _ => ?_
        have := List.mem_range.mp hi
        grind
      rw [each]
      exact ih _ fun a ha => by simpa using (List.mem_filter.mp ha).2
    have last : l.filter (f · = n) = l.filter fun a => !decide (f a < n) := by
      refine List.filter_congr fun a ha => ?_
      have := bounded a ha
      grind
    rw [last]
    exact (below.append_right _).trans (List.filter_append_perm _ l)

/-- The part of a statement, if it is a statement. -/
def StmtPart.stmt? : StmtPart → Option Stmt
  | expr _ => none
  | stmt s => some s

namespace BlockTemplate

/-- The direct substatements into which a scan goes from a statement: those of a block that no
window of the block covers, and all those of other statements. -/
def entered (t : BlockTemplate) (c : MatchContext) : Stmt → List Stmt
  | .block _ ss =>
    ss.zipIdx.filterMap fun (s, i) => if ∃ m ∈ t.scan c ss, m.Covers i then none else some s
  | s => s.children.filterMap StmtPart.stmt?

/-- A scan goes into all parts of a statement that is no block. -/
theorem entered_of_not_block (t : BlockTemplate) (c : MatchContext) {s : Stmt}
    (h : s.isBlock = false) : t.entered c s = s.children.filterMap StmtPart.stmt? := by
  cases s with
  | block => exact absurd h (by simp [Stmt.isBlock, Stmt.block?])
  | _ => rfl

/-- A scan goes from a statement into parts of it. -/
theorem mem_children_of_mem_entered {t : BlockTemplate} {c : MatchContext} {s child : Stmt}
    (h : child ∈ t.entered c s) : StmtPart.stmt child ∈ s.children := by
  unfold entered at h
  split at h
  · obtain ⟨⟨s, i⟩, hs, taken⟩ := List.mem_filterMap.mp h
    obtain ⟨-, same⟩ := Option.ite_none_left_eq_some.mp taken
    obtain rfl := Option.some.inj same
    exact List.mem_map_of_mem (List.fst_mem_of_mem_zipIdx hs)
  · obtain ⟨part, hpart, taken⟩ := List.mem_filterMap.mp h
    cases part with
    | expr e => cases taken
    | stmt s =>
      obtain rfl := Option.some.inj taken
      exact hpart

/-- The blocks that a scan visits from a statement on. -/
def visitedBlocks (t : BlockTemplate) (c : MatchContext) (s : Stmt) : List (List Stmt) :=
  s.block?.toList ++ (t.entered c s).attach.flatMap fun ⟨child, _⟩ => visitedBlocks t c child
termination_by sizeOf s
decreasing_by exact Stmt.sizeOf_lt_of_mem_children (mem_children_of_mem_entered ‹_›)

/-- From a statement, a scan visits its block, if it is one, and the blocks of what it goes into. -/
theorem visitedBlocks_eq (t : BlockTemplate) (c : MatchContext) (s : Stmt) :
    t.visitedBlocks c s = s.block?.toList ++ (t.entered c s).flatMap (t.visitedBlocks c) := by
  have whole : (t.entered c s).flatMap (t.visitedBlocks c)
      = (t.entered c s).attach.flatMap fun child => t.visitedBlocks c child.1 := by
    conv_lhs => rw [← List.attach_map_subtype_val (t.entered c s), List.flatMap_map]
  rw [visitedBlocks, whole]

end BlockTemplate

namespace RefactoringRule

variable {r : RefactoringRule} {c : MatchContext} {t : BlockTemplate}
  {after : Option BlockTemplate}

/-- What a scan of a block with some windows reports at one of its statements: the window that
starts at its position, and what it finds in the statement if no window covers that. -/
def reportsAt (r : RefactoringRule) (c : MatchContext) (after : Option BlockTemplate)
    (windows : List BlockMatch) (inside : Stmt → List RuleMatch) (place : Stmt × Nat) :
    List RuleMatch :=
  (windows.filter (·.start = place.2)).map (r.reportRun c after)
    ++ if ∃ m ∈ windows, m.Covers place.2 then [] else inside place.1

section ReportsAt

variable {m : BlockMatch} {windows : List BlockMatch} {inside : Stmt → List RuleMatch}
  {place : Stmt × Nat}

/-- No window that starts behind a place starts at it. -/
theorem filter_start_of_lt (behind : ∀ m ∈ windows, place.2 < m.start) :
    windows.filter (·.start = place.2) = [] := by
  rw [List.filter_eq_nil_iff]
  intro m hm
  have := behind m hm
  simp only [decide_eq_true_eq]
  omega

/-- In front of all windows a statement is searched itself. -/
theorem reportsAt_of_lt (behind : ∀ m ∈ windows, place.2 < m.start) :
    r.reportsAt c after windows inside place = inside place.1 := by
  have uncovered : ¬ ∃ m ∈ windows, m.Covers place.2 := by
    rintro ⟨m, hm, le, -⟩
    exact absurd (behind m hm) (Nat.not_lt.mpr le)
  rw [reportsAt, filter_start_of_lt behind, if_neg uncovered, List.map_nil, List.nil_append]

/-- In the first window only the window is reported, at its start. -/
theorem reportsAt_cons_of_covers (covers : m.Covers place.2)
    (behind : ∀ m ∈ windows, place.2 < m.start) :
    r.reportsAt c after (m :: windows) inside place =
      if m.start = place.2 then [r.reportRun c after m] else [] := by
  rw [reportsAt, if_pos ⟨m, List.mem_cons_self, covers⟩, List.filter_cons,
    filter_start_of_lt behind, List.append_nil]
  by_cases starts : m.start = place.2
  · rw [if_pos starts, decide_eq_true starts, if_pos rfl, List.map_singleton]
  · rw [if_neg starts, decide_eq_false starts, if_neg Bool.false_ne_true, List.map_nil]

/-- Behind the first window it plays no part. -/
theorem reportsAt_cons_of_stop_le (wide : m.start < m.stop) (passed : m.stop ≤ place.2) :
    r.reportsAt c after (m :: windows) inside place = r.reportsAt c after windows inside place := by
  have apart : ¬ m.Covers place.2 := fun covers => absurd covers.2 (Nat.not_lt.mpr passed)
  have other : m.start ≠ place.2 := by omega
  have same : (∃ w ∈ m :: windows, w.Covers place.2) ↔ ∃ w ∈ windows, w.Covers place.2 := by
    rw [List.exists_mem_cons_iff, or_iff_right apart]
  rw [reportsAt, reportsAt, List.filter_cons_of_neg (by simpa using other)]
  simp only [same]

end ReportsAt

/-- A rule goes through statements as its template does. -/
theorem scanRun_eq (ss : List Stmt) (start skip : Nat) :
    r.scanRun c [t] after start skip ss = (ss.zipIdx start).flatMap fun place =>
      if place.2 < start + skip then []
      else r.reportsAt c after (t.scanFrom c start skip ss) (r.scanStmt c [t] after) place := by
  induction ss generalizing start skip with
  | nil => rw [scanRun, List.zipIdx_nil, List.flatMap_nil]
  | cons s ss ih =>
    rw [List.zipIdx_cons, List.flatMap_cons]
    cases skip with
    | succ skip =>
      rw [scanRun, ih, BlockTemplate.scanFrom, if_pos (by dsimp only; omega), List.nil_append,
        Nat.add_right_comm, Nat.add_assoc]
    | zero =>
      rw [scanRun, BlockTemplate.scanFrom, matchFront?, List.findSome?_singleton]
      have here : ¬ start < start + 0 := Nat.lt_irrefl start
      cases hfront : t.matchFront? c start (s :: ss) with
      | none =>
        -- nothing matches here, so every window starts behind this statement
        have behind : ∀ m ∈ t.scanFrom c (start + 1) 0 ss, start < m.start :=
          fun m hm => BlockTemplate.le_start_of_mem_scanFrom hm
        dsimp only
        rw [if_neg here, reportsAt_of_lt behind, ih]
        congr 1
        refine List.flatMap_congr fun place hplace => ?_
        have le := List.le_snd_of_mem_zipIdx hplace
        rw [if_neg (by omega), if_neg (by omega)]
      | some found =>
        obtain ⟨at_start, hstmts, fits, wide, stop, -⟩ := BlockTemplate.matchFront?_eq_some hfront
        have length : found.stmts.length = t.width := by
          rw [hstmts, List.length_take, Nat.min_eq_left fits]
        have behind : ∀ m ∈ t.scanFrom c (start + 1) (t.width - 1) ss,
            start + t.width ≤ m.start := by
          intro m hm
          have := BlockTemplate.le_start_of_mem_scanFrom hm
          omega
        have first : r.reportsAt c after (found :: t.scanFrom c (start + 1) (t.width - 1) ss)
            (r.scanStmt c [t] after) (s, start) = [r.reportRun c after found] := by
          rw [reportsAt_cons_of_covers ⟨by omega, by omega⟩
            fun m hm => Nat.lt_of_lt_of_le (by omega) (behind m hm), if_pos at_start]
        dsimp only
        rw [if_neg here, first, ih, length, List.singleton_append]
        congr 1
        refine List.flatMap_congr fun place hplace => ?_
        have le := List.le_snd_of_mem_zipIdx hplace
        rw [if_neg (show ¬ place.2 < start + 0 by omega)]
        -- the statements that the window covers are passed over, those behind it do not see it
        by_cases covered : place.2 < start + 1 + (t.width - 1)
        · rw [if_pos covered, reportsAt_cons_of_covers ⟨by omega, by omega⟩
            fun m hm => Nat.lt_of_lt_of_le (by omega) (behind m hm), if_neg (by omega)]
        · rw [if_neg covered, reportsAt_cons_of_stop_le (by omega) (by omega)]

/-- A rule with one template reports in a block the windows that the scan of the template finds
there, each in its place, and goes into the statements that no window covers. -/
theorem scanStmt_block (info : StmtInfo) (ss : List Stmt) :
    r.scanStmt c [t] after (.block info ss) = ss.zipIdx.flatMap
      (r.reportsAt c after (t.scan c ss) (r.scanStmt c [t] after)) := by
  rw [scanStmt, scanRun_eq]
  exact List.flatMap_congr fun _ _ => if_neg (Nat.not_lt_zero _)

/-- Together, the statements of a block report the windows, and what is found in the statements
that the scan enters. -/
theorem perm_scanStmt_block (info : StmtInfo) (ss : List Stmt) :
    (r.scanStmt c [t] after (.block info ss)).Perm
      ((t.scan c ss).map (r.reportRun c after)
        ++ (t.entered c (.block info ss)).flatMap (r.scanStmt c [t] after)) := by
  have starts : (ss.zipIdx.flatMap fun place =>
      ((t.scan c ss).filter (·.start = place.2)).map (r.reportRun c after)).Perm
        ((t.scan c ss).map (r.reportRun c after)) := by
    have bounded : ∀ m ∈ t.scan c ss, m.start < ss.length := by
      intro m hm
      have windows := t.greedyWindows_scan c ss
      obtain ⟨window, -⟩ := windows.fits m hm
      by_contra beyond
      have accepted := windows.accepted m hm
      rw [window, BlockTemplate.window, List.drop_eq_nil_of_le (Nat.not_lt.mp beyond),
        List.take_nil, BlockTemplate.matchRun?_nil] at accepted
      cases accepted
    have sorted := (perm_flatMap_filter BlockMatch.start ss.length _ bounded).map
      (r.reportRun c after)
    rw [List.map_flatMap, List.range_eq_range', ← List.zipIdx_map_snd 0 ss,
      List.flatMap_map] at sorted
    exact sorted
  have entered : (ss.zipIdx.flatMap fun place =>
      if ∃ m ∈ t.scan c ss, m.Covers place.2 then [] else r.scanStmt c [t] after place.1) =
        (t.entered c (.block info ss)).flatMap (r.scanStmt c [t] after) := by
    rw [BlockTemplate.entered, List.filterMap_eq_flatMap_toList, List.flatMap_assoc]
    refine List.flatMap_congr fun place _ => ?_
    dsimp only
    split
    · rfl
    · rw [Option.toList_some, List.flatMap_singleton]
  rw [scanStmt_block, ← entered]
  exact (List.flatMap_append_perm _ _ _).symm.trans (starts.append_right _)

/-- In a statement, a rule with one template reports the windows of the blocks that it visits. -/
theorem perm_scanStmt (s : Stmt) :
    (r.scanStmt c [t] after s).Perm
      ((t.visitedBlocks c s).flatMap fun ss => (t.scan c ss).map (r.reportRun c after)) := by
  induction s using Stmt.induction with
  | step s ih =>
    have below : ((t.entered c s).flatMap (r.scanStmt c [t] after)).Perm
        (((t.entered c s).flatMap (t.visitedBlocks c)).flatMap fun ss =>
          (t.scan c ss).map (r.reportRun c after)) := by
      rw [List.flatMap_assoc]
      exact .flatMap_left _ fun child h => ih child (BlockTemplate.mem_children_of_mem_entered h)
    rw [BlockTemplate.visitedBlocks_eq, List.flatMap_append]
    cases block : s.isBlock with
    | true =>
      cases s with
      | block info ss =>
        refine (perm_scanStmt_block info ss).trans (.trans (below.append_left _) ?_)
        rw [Stmt.block?, Option.toList_some, List.flatMap_singleton]
      | _ => exact absurd block (by simp [Stmt.isBlock, Stmt.block?])
    | false =>
      have none : s.block? = none := by
        rw [Stmt.isBlock] at block
        exact Option.not_isSome_iff_eq_none.mp (Bool.eq_false_iff.mp block)
      have parts : r.scanStmt c [t] after s
          = (t.entered c s).flatMap (r.scanStmt c [t] after) := by
        rw [scanStmt_of_not_block block, t.entered_of_not_block c block, SyntaxNode.children,
          List.flatMap_map, List.filterMap_eq_flatMap_toList, List.flatMap_assoc]
        refine List.flatMap_congr fun part _ => ?_
        cases part with
        | expr e => rfl
        | stmt child => exact (List.flatMap_singleton _ _).symm
      rw [none, Option.toList_none, List.flatMap_nil, List.nil_append, parts]
      exact below

/-- The scans of a block by a template and by a rule with that template are one greedy scan.  The
template finds windows of its width that match, in order and without overlaps, and passes only over
positions where it does not match; a template of no statements finds nothing.  In each block the
rule reports the same windows, and goes into the statements that no window covers; its reports in a
unit are those of the blocks that it visits in this way. -/
theorem scan_greedyWindows (t : BlockTemplate) (c : MatchContext) :
    (∀ ss, t.GreedyWindows c ss (t.scan c ss)) ∧
    (∀ ss, (BlockTemplate.mk t.header []).scan c ss = []) ∧
    ∀ (name : String) (after : Option BlockTemplate) (options : TemplateOptions),
      let r : RefactoringRule := ⟨name, .block [t] after, options⟩
      (∀ info ss, r.scanBody c (.block info ss) =
        ss.zipIdx.flatMap (r.reportsAt c after (t.scan c ss) (r.scanBody c))) ∧
      (r.scan c).Perm
        ((c.unit.types.flatMap fun d => d.methods.flatMap fun m =>
          t.visitedBlocks c m.body).flatMap fun ss => (t.scan c ss).map (r.reportRun c after)) := by
  refine ⟨t.greedyWindows_scan c, fun ss => ?_, fun name after options => ?_⟩
  · exact BlockTemplate.scan_eq_nil rfl c ss
  · intro r
    refine ⟨scanStmt_block, ?_⟩
    have type (d : TypeDecl) : d.fields.flatMap (r.scanField c)
        ++ d.methods.flatMap (fun m => r.scanBody c m.body)
          = d.methods.flatMap fun m => r.scanStmt c [t] after m.body := by
      have fields : d.fields.flatMap (r.scanField c) = [] :=
        List.flatMap_eq_nil_iff.mpr fun _ _ => rfl
      rw [fields]
      rfl
    rw [scan, List.flatMap_congr fun d _ => type d, List.flatMap_assoc]
    refine .flatMap_left _ fun d _ => ?_
    rw [List.flatMap_assoc]
    exact .flatMap_left _ fun m _ => perm_scanStmt m.body

end RefactoringRule

end JavaRefactor
