import JavaRefactor.Proofs.Expansion.Ensures
import JavaRefactor.Proofs.Layout.StmtPieces
import JavaRefactor.Proofs.Rule.Expression
import Mathlib.Data.List.TakeWhile

/-!
# Statements on lines of their own

In a laid-out block every statement stands behind a line break (`StmtLines.of_laidAt`).  A
replacement of consecutive statements edits them one by one.  A statement that is deleted
takes the line break before it along, and that lies behind the statement before it
(`Span.wholeLine_start`), so the edits are texts one after the other
(`BlockTemplate.replaceEach_ensures`).
-/

namespace JavaRefactor

open Layout

/-! ### Whole lines -/

/-- Characters take as many bytes backwards. -/
theorem Text.byteLength_reverse (cs : List Char) : byteLength cs.reverse = byteLength cs := by
  induction cs with
  | nil => rfl
  | cons c cs ih =>
    rw [List.reverse_cons, byteLength_append, ih, byteLength_cons, byteLength_cons,
      byteLength_nil]
    omega

/-- A span that is widened to its whole line starts behind any text that a line break keeps
apart from it. -/
theorem Span.wholeLine_start {source gap : String} {start : Nat} {span : Span}
    (text : TextAt source start gap) (breaks : '\n' ∈ gap.toList)
    (follows : span.start = start + gap.utf8ByteSize) :
    start ≤ (span.wholeLine source).start ∧ (span.wholeLine source).start ≤ span.start ∧
      (span.wholeLine source).stop = span.stop := by
  obtain ⟨first, last, rfl, rfl⟩ := text
  have before : Text.slice? (first ++ gap ++ last).toList 0 span.start
      = some (first.toList ++ gap.toList) := by
    have middle := Text.slice?_middle [] (first.toList ++ gap.toList) last.toList
    rw [Text.byteLength_nil, Nat.zero_add, Text.byteLength_append, Text.byteLength_toList,
      Text.byteLength_toList, ← follows] at middle
    rw [String.toList_append, String.toList_append]
    exact middle
  -- only indentation of the line is passed over, so the search ends inside the gap
  obtain ⟨c, rest, hrest⟩ : ∃ c rest,
      gap.toList.reverse.dropWhile CompilationUnit.isIndentation = c :: rest := by
    cases h : gap.toList.reverse.dropWhile CompilationUnit.isIndentation with
    | nil =>
      have all := List.dropWhile_eq_nil_iff.mp h '\n' (List.mem_reverse.mpr breaks)
      exact absurd all (by decide)
    | cons c rest => exact ⟨c, rest, rfl⟩
  have found : (first.toList ++ gap.toList).reverse.dropWhile CompilationUnit.isIndentation
      = c :: (rest ++ first.toList.reverse) := by
    rw [List.reverse_append, List.dropWhile_append, hrest]
    rfl
  have size : Text.byteLength (c :: rest) ≤ gap.utf8ByteSize := by
    rw [← Text.byteLength_toList, ← Text.byteLength_reverse gap.toList, ← hrest]
    have whole := List.takeWhile_append_dropWhile (p := CompilationUnit.isIndentation)
      (l := gap.toList.reverse)
    have bytes := congrArg Text.byteLength whole
    rw [Text.byteLength_append] at bytes
    omega
  rw [Text.byteLength_cons] at size
  rw [Span.wholeLine, before, Option.getD_some, found]
  split
  · rename_i rest' heq
    obtain ⟨-, rfl⟩ := List.cons_eq_cons.mp heq
    rw [Text.byteLength_append, Text.byteLength_reverse, Text.byteLength_toList]
    refine ⟨Nat.le_add_left _ _, ?_, rfl⟩
    show Text.byteLength rest + first.utf8ByteSize ≤ span.start
    omega
  · exact ⟨by omega, Nat.le_refl _, rfl⟩

/-! ### Statements on lines of their own -/

/-- Statements between two offsets of a source, one after the other, each behind a line
break. -/
def StmtLines (source : String) (start stop : Nat) : List Stmt → Prop
  | [] => start ≤ stop
  | s :: ss =>
    (∃ gap, TextAt source start gap ∧ '\n' ∈ gap.toList ∧
      s.span.start = start + gap.utf8ByteSize) ∧
    s.span.start ≤ s.span.stop ∧ StmtLines source s.span.stop stop ss

namespace StmtLines

variable {source : String} {start stop : Nat} {ss : List Stmt}

/-- The spans of the statements are a chain. -/
theorem chain (h : StmtLines source start stop ss) : SpanChain start stop (ss.map Stmt.span) := by
  induction ss generalizing start with
  | nil => exact h
  | cons s ss ih =>
    obtain ⟨⟨gap, -, -, follows⟩, own, rest⟩ := h
    exact ⟨by omega, own, ih rest⟩

/-- Lines end no earlier than they start. -/
theorem le (h : StmtLines source start stop ss) : start ≤ stop := h.chain.le

/-- There may be more text behind the statements. -/
theorem mono_stop {stop' : Nat} (h : StmtLines source start stop ss) (le : stop ≤ stop') :
    StmtLines source start stop' ss := by
  induction ss generalizing start with
  | nil => exact Nat.le_trans h le
  | cons s ss ih => exact ⟨h.1, h.2.1, ih h.2.2⟩

/-- The first statements end where the others begin. -/
theorem split (h : StmtLines source start stop ss) (n : Nat) :
    ∃ mid, StmtLines source start mid (ss.take n) ∧ StmtLines source mid stop (ss.drop n) := by
  induction n generalizing start ss with
  | zero => exact ⟨start, Nat.le_refl _, h⟩
  | succ n ih =>
    cases ss with
    | nil => exact ⟨stop, h, Nat.le_refl _⟩
    | cons s ss =>
      obtain ⟨behind, own, rest⟩ := h
      obtain ⟨mid, first, second⟩ := ih rest
      exact ⟨mid, ⟨behind, own, first⟩, second⟩

/-- Deleting the statements with their lines deletes texts one after the other. -/
theorem deletions (h : StmtLines source start stop ss) :
    SpanChain start stop (ss.map fun s => s.span.wholeLine source) := by
  induction ss generalizing start with
  | nil => exact h
  | cons s ss ih =>
    obtain ⟨⟨gap, text, breaks, follows⟩, own, rest⟩ := h
    obtain ⟨first, before, last⟩ := Span.wholeLine_start text breaks follows
    refine ⟨first, ?_, ?_⟩
    · show (s.span.wholeLine source).start ≤ (s.span.wholeLine source).stop
      omega
    · show SpanChain (s.span.wholeLine source).stop stop _
      rw [last]
      exact ih rest

/-- The span from the first of some statements to the last lies between the same offsets. -/
theorem runSpan {run : Span} (h : StmtLines source start stop ss)
    (hrun : Stmt.runSpan? ss = some run) :
    start ≤ run.start ∧ run.start ≤ run.stop ∧ run.stop ≤ stop := by
  unfold Stmt.runSpan? at hrun
  split at hrun
  · rename_i first last hfirst hlast
    have hfirst := h.chain.bounds_of_mem (List.mem_map_of_mem (List.mem_of_head? hfirst))
    have hlast := h.chain.bounds_of_mem (List.mem_map_of_mem (List.mem_of_getLast? hlast))
    rw [← Option.some.inj hrun, Span.merge]
    refine ⟨?_, ?_, ?_⟩ <;> dsimp only <;> omega
  · exact absurd hrun (by simp)

end StmtLines

/-- The start of a new line has a line break. -/
theorem Indent.mem_newline (ind : Indent) : '\n' ∈ ind.newline.toList := by
  rw [newline, String.toList_append, String.toList_append]
  simp

/-- The lines of some statements start with those of the first one. -/
theorem Stmt.textOf_layoutLines_cons (ind : Indent) (s : Stmt) (ss : List Stmt) :
    textOf (Stmt.layoutLines none ind (s :: ss)) = textOf (s.lead ind)
      ++ (ind.newline
        ++ (textOf (s.parts ind false) ++ textOf (Stmt.layoutLines none ind ss))) := by
  rw [Stmt.layoutLines_cons, textOf_append]
  rfl

/-- The first of some laid-out statements, and the others behind it. -/
theorem Stmt.laid_layoutLines_cons {source : String}
    (small : source.utf8ByteSize < Span.maxOffset) {ind : Indent} {s : Stmt} {ss : List Stmt}
    {start : Nat} (text : TextAt source start (textOf (Stmt.layoutLines none ind (s :: ss))))
    (laid : List.Forall₂ (fun p s => SyntaxNode.LaidAt p.1 p.2 (.stmt s))
      (places start (Stmt.layoutLines none ind (s :: ss))) (s :: ss)) :
    let before := start + (textOf (s.lead ind)).utf8ByteSize
    TextAt source before
        (ind.newline ++ (textOf (s.parts ind false) ++ textOf (Stmt.layoutLines none ind ss))) ∧
      s.span = ⟨before + ind.newline.utf8ByteSize,
        before + ind.newline.utf8ByteSize + (textOf (s.parts ind false)).utf8ByteSize⟩ ∧
      TextAt source s.span.stop (textOf (Stmt.layoutLines none ind ss)) ∧
      List.Forall₂ (fun p s => SyntaxNode.LaidAt p.1 p.2 (.stmt s))
        (places s.span.stop (Stmt.layoutLines none ind ss)) ss := by
  intro before
  rw [Stmt.places_layoutLines_cons] at laid
  obtain _ | ⟨first, others⟩ := laid
  rw [Stmt.textOf_layoutLines_cons] at text
  have line := text.append.2
  have own := line.append.2
  have span : s.span = _ := first.span_eq own.append.1 small
  refine ⟨line, span, ?_, ?_⟩
  · rw [span]
    exact own.append.2
  · rw [span]
    exact others

/-- Statements that are laid out line by line stand on lines of their own. -/
theorem StmtLines.of_laidAt {source : String} (small : source.utf8ByteSize < Span.maxOffset)
    {ind : Indent} {ss : List Stmt} {start : Nat}
    (text : TextAt source start (textOf (Stmt.layoutLines none ind ss)))
    (laid : List.Forall₂ (fun p s => SyntaxNode.LaidAt p.1 p.2 (.stmt s))
      (places start (Stmt.layoutLines none ind ss)) ss) :
    StmtLines source start
      (start + (textOf (Stmt.layoutLines none ind ss)).utf8ByteSize) ss := by
  induction ss generalizing start with
  | nil => exact Nat.le_add_right _ _
  | cons s ss ih =>
    obtain ⟨-, span, rest, others⟩ := Stmt.laid_layoutLines_cons small text laid
    rw [Stmt.textOf_layoutLines_cons] at text ⊢
    have before : TextAt source start (textOf (s.lead ind) ++ ind.newline) := by
      rw [← String.append_assoc] at text
      exact text.append.1
    have breaks : '\n' ∈ (textOf (s.lead ind) ++ ind.newline).toList := by
      rw [String.toList_append]
      exact List.mem_append_right _ ind.mem_newline
    refine ⟨⟨_, before, breaks, ?_⟩, ?_, ?_⟩
    · rw [span, String.utf8ByteSize_append, Nat.add_assoc]
    · rw [span]
      exact Nat.le_add_right _ _
    · have stop : start + (textOf (s.lead ind) ++ (ind.newline ++ (textOf (s.parts ind false)
          ++ textOf (Stmt.layoutLines none ind ss)))).utf8ByteSize
          = s.span.stop + (textOf (Stmt.layoutLines none ind ss)).utf8ByteSize := by
        rw [span]
        simp only [String.utf8ByteSize_append, Nat.add_assoc]
      rw [stop]
      exact ih rest others

/-- The statements of a block are written line by line behind its brace. -/
theorem Stmt.parts_block_cons (i : StmtInfo) (s : Stmt) (ss : List Stmt) (ind : Indent)
    (inHeader : Bool) : (Stmt.block i (s :: ss)).parts ind inHeader
      = [.text "\x7b"] ++ (Stmt.layoutLines none ind.deeper (s :: ss)
        ++ [.text ind.newline, .text "\x7d"]) := by
  have lines := Stmt.fill_lines ind.deeper (s :: ss) [.text ind.newline, .text "\x7d"]
  rw [Stmt.parts, Stmt.pieces, Stmt.children, List.isEmpty_cons, if_neg Bool.false_ne_true,
    List.cons_append, Piece.fill_text, lines]
  rfl

/-- The statements of a laid-out block are laid out on these lines. -/
theorem SyntaxNode.LaidAt.block_lines {i : StmtInfo} {s : Stmt} {ss : List Stmt} {start : Nat}
    {ind : Indent} {inHeader : Bool}
    (h : SyntaxNode.LaidAt start (.node ((Stmt.block i (s :: ss)).parts ind inHeader))
      (.stmt (.block i (s :: ss)))) :
    List.Forall₂ (fun p t => SyntaxNode.LaidAt p.1 p.2 (.stmt t))
      (places (start + (textOf [.text "\x7b"]).utf8ByteSize)
        (Stmt.layoutLines none ind.deeper (s :: ss))) (s :: ss) := by
  obtain ⟨-, -, count, child⟩ := h
  have brace : places start ((Stmt.block i (s :: ss)).parts ind inHeader)
      = places (start + (textOf [.text "\x7b"]).utf8ByteSize)
        (Stmt.layoutLines none ind.deeper (s :: ss)) := by
    rw [Stmt.parts_block_cons, places_append, places_append]
    simp [places, isNode]
  rw [brace] at count child
  have laid := List.forall₂_iff_zip.mpr ⟨count, fun {p n} hpn => child (p, n) hpn⟩
  rw [SyntaxNode.children, Stmt.children, List.map_map, List.forall₂_map_right_iff] at laid
  exact laid

/-- The statements of a laid-out block are laid out line by line behind its brace. -/
theorem SyntaxNode.LaidAt.block_cons {i : StmtInfo} {s : Stmt} {ss : List Stmt} {start : Nat}
    {l : Layout} (h : SyntaxNode.LaidAt start l (.stmt (.block i (s :: ss)))) :
    ∃ ind closing, l = .node ([.text "\x7b"] ++ (Stmt.layoutLines none ind (s :: ss)
        ++ closing)) ∧
      List.Forall₂ (fun p t => SyntaxNode.LaidAt p.1 p.2 (.stmt t))
        (places (start + (textOf [.text "\x7b"]).utf8ByteSize)
          (Stmt.layoutLines none ind (s :: ss))) (s :: ss) := by
  obtain ⟨ind, inHeader, rfl⟩ : ∃ ind inHeader,
      l = .node ((Stmt.block i (s :: ss)).parts ind inHeader) := by
    obtain ⟨⟨ind, inHeader, printed⟩, -⟩ := h
    rw [Stmt.layout_eq, subnodes_append, Stmt.subnodes_above] at printed
    exact ⟨ind, inHeader, (List.cons.inj printed).1.symm⟩
  have lines := h.block_lines
  rw [Stmt.parts_block_cons]
  exact ⟨_, _, rfl, lines⟩

/-! ### Edits of a match -/

namespace BlockTemplate

/-- The edit of a statement has its span. -/
theorem replaceStmt_ensures (c : ExpansionContext) (ps : List StmtPattern) (target : Stmt) :
    (replaceStmt c ps target).Ensures fun e => e.span = target.span :=
  Expanding.Ensures.bind (.trivial _) fun _ _ => .pure rfl

/-- The edits of statements on lines of their own are texts one after the other. -/
theorem replaceEach_ensures {c : ExpansionContext} {start stop : Nat} (ps : List StmtPattern)
    {targets : List Stmt} (h : StmtLines c.unit.source start stop targets) :
    (replaceEach c ps targets).Ensures fun edits =>
      SpanChain start stop (edits.map TextEdit.span) := by
  induction ps, targets using replaceEach.induct generalizing start with
  | case1 targets =>
    rw [replaceEach]
    refine .pure ?_
    rw [List.map_map]
    exact h.deletions
  | case2 p ps =>
    rw [replaceEach]
    exact .pure h
  | case3 p ps last =>
    rw [replaceEach]
    refine .bind (replaceStmt_ensures c _ last) fun e he => .pure ?_
    rw [List.map_singleton, he]
    exact h.chain
  | case4 p ps target next targets ih =>
    rw [replaceEach]
    obtain ⟨⟨gap, -, -, follows⟩, own, rest⟩ := h
    refine .bind (replaceStmt_ensures c _ target) ?_
    intro e he
    refine .bind (ih rest) fun edits hedits => .pure ?_
    rw [List.map_cons, he]
    exact ⟨by omega, own, hedits⟩

/-- An edit of statements has the span of one of them, or of its line. -/
theorem replaceEach_ensures_span (c : ExpansionContext) (ps : List StmtPattern)
    (targets : List Stmt) :
    (replaceEach c ps targets).Ensures fun edits => ∀ e ∈ edits, ∃ s ∈ targets,
      e.span = s.span ∨ e.span = s.span.wholeLine c.unit.source := by
  induction ps, targets using replaceEach.induct with
  | case1 targets =>
    rw [replaceEach]
    refine .pure ?_
    intro e he
    obtain ⟨s, hs, rfl⟩ := List.mem_map.mp he
    exact ⟨s, hs, .inr rfl⟩
  | case2 p ps =>
    rw [replaceEach]
    exact .pure fun e he => absurd he List.not_mem_nil
  | case3 p ps last =>
    rw [replaceEach]
    refine .bind (replaceStmt_ensures c _ last) fun e he => .pure ?_
    intro e' he'
    rw [List.mem_singleton.mp he']
    exact ⟨last, List.mem_cons_self, .inl he⟩
  | case4 p ps target next targets ih =>
    rw [replaceEach]
    refine .bind (replaceStmt_ensures c _ target) fun e he => .bind ih fun edits hedits => .pure ?_
    intro e' he'
    rcases List.mem_cons.mp he' with rfl | he'
    · exact ⟨target, List.mem_cons_self, .inl he⟩
    · obtain ⟨s, hs, span⟩ := hedits e' he'
      exact ⟨s, List.mem_cons_of_mem target hs, span⟩

end BlockTemplate

end JavaRefactor
