import JavaRefactor.Proofs.Rule.Lines
import JavaRefactor.Proofs.Unit.Comments

/-!
# Comments around the statements of a block

In a laid-out block the comments above a statement stand between the statement before it and
the line break in front of it, and the comments above the statements inside a statement stand
inside it (`OnLine`).  All other comments stand in front of the statement or behind it, and
none between it and that line break.  `CommentedLines` says this of statements one after the
other, and it holds of the statements of every block of a unit (`LaidOut.commentedLines`).
-/

namespace JavaRefactor

open Layout

/-- A statement on a line of its own behind an offset of a source, and how the comments of the
source lie around it. -/
structure OnLine (source : String) (ks : List Span) (start : Nat) (s : Stmt) : Prop where
  /-- No comment stands between the statement and a line break in front of it. -/
  line : ∃ offset gap, start ≤ offset ∧ TextAt source offset gap ∧ '\n' ∈ gap.toList ∧
    s.span.start = offset + gap.utf8ByteSize ∧
      ∀ k ∈ ks, k.stop ≤ offset ∨ s.span.contains k = true ∨ s.span.stop ≤ k.start
  forward : s.span.start ≤ s.span.stop
  /-- The comments above the statement stand in front of it. -/
  above : s.comments ≠ [] → ∃ k ∈ ks, start ≤ k.start ∧ k.stop ≤ s.span.start
  /-- The comments above the statements inside it stand inside it. -/
  inside : (∃ n ∈ s.inner, n.comments ≠ []) → ∃ k ∈ ks, s.span.contains k = true

/-- Statements behind an offset, each on a line of its own. -/
def CommentedLines (source : String) (ks : List Span) (start : Nat) : List Stmt → Prop
  | [] => True
  | s :: ss => OnLine source ks start s ∧ CommentedLines source ks s.span.stop ss

namespace OnLine

variable {source : String} {ks : List Span} {start : Nat} {s : Stmt}

/-- A statement on a line does not start in front of it. -/
theorem le (h : OnLine source ks start s) : start ≤ s.span.start := by
  obtain ⟨offset, gap, le, -, -, follows, -⟩ := h.line
  omega

/-- A statement that is laid out behind the comments above it stands on a line of its own. -/
theorem of_setIn (small : source.utf8ByteSize < Span.maxOffset) {ind : Indent} {before : Nat}
    (follows : before = start + (textOf (s.lead ind)).utf8ByteSize)
    (lead : SetIn source ks start (s.lead ind))
    (own : SetIn source ks before [.text ind.newline, .node (s.parts ind false)])
    (span : s.span = ⟨before + ind.newline.utf8ByteSize,
      before + ind.newline.utf8ByteSize + (Layout.node (s.parts ind false)).width⟩) :
    OnLine source ks start s := by
  obtain ⟨line, node⟩ := own.cons small
  have size : (textOf [.text ind.newline, .node (s.parts ind false)]).utf8ByteSize
      = ind.newline.utf8ByteSize + (Layout.node (s.parts ind false)).width := by
    rw [utf8ByteSize_textOf_cons, textOf_singleton]
    rfl
  have nodeSize : (textOf [.node (s.parts ind false)]).utf8ByteSize
      = (Layout.node (s.parts ind false)).width := by
    rw [textOf_singleton, width]
  have lineSize : (Layout.text ind.newline).width = ind.newline.utf8ByteSize := rfl
  have text : TextAt source before ind.newline := by
    have text := line.text
    rw [textOf_singleton] at text
    exact text
  have start_eq : s.span.start = before + ind.newline.utf8ByteSize := by rw [span]
  have stop_eq : s.span.stop = s.span.start + (Layout.node (s.parts ind false)).width := by
    rw [span]
  constructor
  · refine ⟨before, ind.newline, by omega, text, ind.mem_newline, start_eq, ?_⟩
    intro k hk
    rcases own.others k hk with mine | front | back
    · -- the line break has no comments, so this one is in the node
      obtain ⟨lower, -, upper⟩ := node.bounds small mine
      exact .inr (.inl (Span.contains_iff.mpr ⟨by omega, by omega⟩))
    · exact .inl front
    · exact .inr (.inr (by omega))
  · omega
  · intro commented
    have written : commentsOf (s.lead ind) ≠ [] := by
      rw [Stmt.commentsOf_lead]
      exact fun none => commented (List.map_eq_nil_iff.mp none)
    obtain ⟨k, hk, lower, upper⟩ := lead.exists_inside small written
    exact ⟨k, hk, lower, by omega⟩
  · rintro ⟨n, hn, commented⟩
    have written : commentsOf [.node (s.parts ind false)] ≠ [] := by
      rw [commentsOf_node, commentsOf_nil, List.append_nil, Stmt.commentsOf_parts]
      intro none
      have own := List.flatMap_eq_nil_iff.mp none n hn
      exact commented (List.map_eq_nil_iff.mp own)
    obtain ⟨k, hk, lower, upper⟩ := node.exists_inside small written
    exact ⟨k, hk, Span.contains_iff.mpr ⟨by omega, by omega⟩⟩

/-- The line of a statement ends where the statement ends.  A comment that does not stand inside
the statement overlaps neither the statement nor its line. -/
theorem apart (h : OnLine source ks start s) {span : Span}
    (hspan : span = s.span ∨ span = s.span.wholeLine source) :
    span.stop = s.span.stop ∧ ∀ k ∈ ks, s.span.contains k = false →
      k.stop ≤ span.start ∨ span.stop ≤ k.start := by
  obtain ⟨offset, gap, -, text, breaks, follows, others⟩ := h.line
  obtain ⟨lower, -, stop⟩ := Span.wholeLine_start text breaks follows
  have found {k : Span} (hk : k ∈ ks) (outside : s.span.contains k = false) :
      k.stop ≤ offset ∨ s.span.stop ≤ k.start := by
    rcases others k hk with front | mine | back
    · exact .inl front
    · rw [outside] at mine
      exact absurd mine Bool.false_ne_true
    · exact .inr back
  rcases hspan with rfl | rfl
  · refine ⟨rfl, fun k hk outside => ?_⟩
    have := found hk outside
    omega
  · refine ⟨stop, fun k hk outside => ?_⟩
    have := found hk outside
    omega

end OnLine

namespace CommentedLines

variable {source : String} {ks : List Span} {start : Nat} {ss : List Stmt}

/-- Statements that are laid out line by line stand on lines of their own. -/
theorem of_setIn (small : source.utf8ByteSize < Span.maxOffset) {ind : Indent}
    (set : SetIn source ks start (Stmt.layoutLines none ind ss))
    (laid : List.Forall₂ (fun p s => SyntaxNode.LaidAt p.1 p.2 (.stmt s))
      (places start (Stmt.layoutLines none ind ss)) ss) :
    CommentedLines source ks start ss := by
  induction ss generalizing start with
  | nil => trivial
  | cons s ss ih =>
    rw [Stmt.layoutLines_cons] at set
    rw [Stmt.places_layoutLines_cons] at laid
    obtain _ | ⟨first, others⟩ := laid
    obtain ⟨lead, lines⟩ := set.append small
    obtain ⟨node, rest⟩ := (lines.cons small).2.cons small
    have text := node.text
    rw [textOf_singleton] at text
    have span : s.span = _ := first.span_eq text small
    refine ⟨.of_setIn small rfl lead (lines.append small).1 span, ?_⟩
    rw [span]
    exact ih rest others

/-- Statements stand behind the statements before them. -/
theorem of_append {front run : List Stmt} (h : CommentedLines source ks start (front ++ run)) :
    ∃ first, start ≤ first ∧ CommentedLines source ks first run := by
  induction front generalizing start with
  | nil => exact ⟨start, Nat.le_refl _, h⟩
  | cons s front ih =>
    obtain ⟨own, rest⟩ := h
    obtain ⟨first, behind, lines⟩ := ih rest
    have := own.le
    have := own.forward
    exact ⟨first, by omega, lines⟩

/-- The statements before others stand on lines of their own without them. -/
theorem left {run back : List Stmt} (h : CommentedLines source ks start (run ++ back)) :
    CommentedLines source ks start run := by
  induction run generalizing start with
  | nil => trivial
  | cons s run ih => exact ⟨h.1, ih h.2⟩

/-- Each of the statements stands on a line of its own. -/
theorem onLine_of_mem (h : CommentedLines source ks start ss) {s : Stmt} (hs : s ∈ ss) :
    ∃ first, start ≤ first ∧ OnLine source ks first s := by
  obtain ⟨front, back, rfl⟩ := List.append_of_mem hs
  obtain ⟨first, behind, lines⟩ := h.of_append
  exact ⟨first, behind, lines.1⟩

/-- The last statement ends last. -/
theorem stop_le_getLast (h : CommentedLines source ks start ss) {s last : Stmt} (hs : s ∈ ss)
    (hlast : ss.getLast? = some last) : s.span.stop ≤ last.span.stop := by
  obtain ⟨front, rfl⟩ := List.getLast?_eq_some_iff.mp hlast
  rcases List.mem_append.mp hs with hs | hs
  · obtain ⟨earlier, between, rfl⟩ := List.append_of_mem hs
    rw [List.append_assoc] at h
    obtain ⟨-, -, -, rest⟩ := h.of_append
    obtain ⟨first, behind, own, -⟩ := rest.of_append
    have := own.le
    have := own.forward
    omega
  · rw [List.mem_singleton.mp hs]

/-- The span from the first statement to the last contains the statements, and all but the
first stand behind an offset in it. -/
theorem runSpan {run : Span} (h : CommentedLines source ks start ss)
    (hrun : Stmt.runSpan? ss = some run) :
    (∀ s ∈ ss, run.contains s.span = true) ∧
      ∀ s ∈ ss.tail, ∃ first, run.start ≤ first ∧ OnLine source ks first s := by
  cases ss with
  | nil => exact absurd hrun (by simp [Stmt.runSpan?])
  | cons a ss =>
    unfold Stmt.runSpan? at hrun
    split at hrun
    · rename_i first last hfirst hlast
      obtain rfl := Option.some.inj hfirst
      obtain rfl := Option.some.inj hrun
      have lower := (Span.contains_iff.mp (a.span.contains_merge_left last.span)).1
      have upper := (Span.contains_iff.mp (a.span.contains_merge_right last.span)).2
      have forward := h.1.forward
      have behind {s : Stmt} (hs : s ∈ ss) :
          ∃ first, (a.span.merge last.span).start ≤ first ∧ OnLine source ks first s := by
        obtain ⟨first, le, own⟩ := h.2.onLine_of_mem hs
        exact ⟨first, by omega, own⟩
      refine ⟨?_, fun s hs => behind hs⟩
      intro s hs
      have stop := h.stop_le_getLast hs hlast
      refine Span.contains_iff.mpr ⟨?_, by omega⟩
      rcases List.mem_cons.mp hs with rfl | hs
      · exact lower
      · obtain ⟨first, le, own⟩ := behind hs
        have := own.le
        omega
    · exact absurd hrun (by simp)

end CommentedLines

/-- The statements of a block of a laid-out unit stand on lines of their own. -/
theorem CompilationUnit.LaidOut.commentedLines {u : CompilationUnit} (h : u.LaidOut)
    (small : u.source.utf8ByteSize < Span.maxOffset) {i : StmtInfo} {ss : List Stmt}
    (hblock : SyntaxNode.stmt (.block i ss) ∈ u.nodes) :
    ∃ start, CommentedLines u.source u.comments start ss := by
  cases ss with
  | nil => exact ⟨0, trivial⟩
  | cons s ss =>
    obtain ⟨start, l, laid, set⟩ := h.exists_setIn small hblock
    obtain ⟨ind, closing, rfl, lines⟩ := laid.block_cons
    exact ⟨_, .of_setIn small ((set.parts.append small).2.append small).1 lines⟩

end JavaRefactor
