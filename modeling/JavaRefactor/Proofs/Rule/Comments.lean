import JavaRefactor.Proofs.Edit.Splice
import JavaRefactor.Proofs.Rule.Apart
import JavaRefactor.Proofs.Rule.LineComments
import JavaRefactor.Proofs.Rule.Outermost
import JavaRefactor.Proofs.Template.Accepted
import Mathlib.Data.List.Flatten

/-!
# Fixes keep the comments

A fix of an expression edits the expression, in which there are no comments.  A fix of
statements edits statements of a block and the lines in front of them; a run of statements
with a comment between its ends does not match (`BlockTemplate.matchRun?_eq_none`), so no
comment stands in an edited statement either.  So no edit of a fix overlaps a comment, and the
comments of a unit are still there after the fixes of a rule, in their order
(`RefactoringRule.scan_keepsComments`).
-/

namespace JavaRefactor

open Layout

/-! ### Runs with comments -/

/-- No comment stands between the ends of statements that match. -/
theorem BlockTemplate.runSpan?_of_matchRun? {t : BlockTemplate} {c : MatchContext}
    {run : List Stmt} {b : Bindings} (h : t.matchRun? c run = some b) :
    ∃ span, Stmt.runSpan? run = some span ∧ ∀ k ∈ c.unit.comments, span.contains k = false := by
  obtain ⟨_, span, -, hspan, silent, -⟩ := matchRun?_eq_some_iff.mp h
  refine ⟨span, hspan, fun k hk => ?_⟩
  rw [CompilationUnit.hasCommentWithin, List.any_eq_false] at silent
  exact Bool.eq_false_iff.mpr (silent k hk)

/-- Statements of a block do not match if a comment stands above one of them other than the
first, or above a statement inside one of them. -/
theorem BlockTemplate.matchRun?_eq_none {t : BlockTemplate} {c : MatchContext} {start : Nat}
    {run : List Stmt} (lines : CommentedLines c.unit.source c.unit.comments start run)
    (commented : (∃ s ∈ run.tail, s.comments ≠ []) ∨
      ∃ s ∈ run, ∃ n ∈ s.inner, n.comments ≠ []) : t.matchRun? c run = none := by
  cases h : t.matchRun? c run with
  | none => rfl
  | some b =>
    obtain ⟨span, hspan, free⟩ := runSpan?_of_matchRun? h
    obtain ⟨inside, behind⟩ := lines.runSpan hspan
    obtain ⟨k, hk, found⟩ : ∃ k ∈ c.unit.comments, span.contains k = true := by
      rcases commented with ⟨s, hs, above⟩ | ⟨s, hs, nested⟩
      · obtain ⟨first, le, own⟩ := behind s hs
        obtain ⟨k, hk, lower, upper⟩ := own.above above
        have last := (Span.contains_iff.mp (inside s (List.mem_of_mem_tail hs))).2
        have forward := own.forward
        exact ⟨k, hk, Span.contains_iff.mpr ⟨by omega, by omega⟩⟩
      · obtain ⟨first, -, own⟩ := lines.onLine_of_mem hs
        obtain ⟨k, hk, within⟩ := own.inside nested
        exact ⟨k, hk, Span.contains_trans (inside s hs) within⟩
    rw [free k hk] at found
    exact absurd found Bool.false_ne_true

/-! ### Where a rule about statements looks -/

namespace RefactoringRule

variable {r : RefactoringRule} {c : MatchContext} {before : List BlockTemplate}
  {after : Option BlockTemplate}

/-- A match is the report of statements that follow each other among some statements and match
a template. -/
def ReportsRun (r : RefactoringRule) (c : MatchContext) (before : List BlockTemplate)
    (after : Option BlockTemplate) (ss : List Stmt) (m : RuleMatch) : Prop :=
  ∃ front run back, ss = front ++ (run ++ back) ∧
    ∃ t ∈ before, ∃ b, t.matchRun? c run = some b ∧
      ∃ start, m = r.reportRun c after ⟨start, run, b⟩

/-- A run of statements is reported behind another statement, too. -/
theorem ReportsRun.cons {ss : List Stmt} {m : RuleMatch} (h : r.ReportsRun c before after ss m)
    (s : Stmt) : r.ReportsRun c before after (s :: ss) m := by
  obtain ⟨front, run, back, rfl, found⟩ := h
  exact ⟨s :: front, run, back, rfl, found⟩

/-- What a scan of some statements finds is a run of them, or is found in one of them. -/
theorem mem_scanRun {m : RuleMatch} {ss : List Stmt} {first skip : Nat}
    (hm : m ∈ r.scanRun c before after first skip ss) :
    r.ReportsRun c before after ss m ∨ ∃ s ∈ ss, m ∈ r.scanStmt c before after s := by
  induction ss generalizing first skip with
  | nil =>
    rw [scanRun] at hm
    exact absurd hm List.not_mem_nil
  | cons s ss ih =>
    -- the scan behind a statement finds what the statements behind it have
    have later {first skip : Nat} (hm : m ∈ r.scanRun c before after first skip ss) :
        r.ReportsRun c before after (s :: ss) m ∨
          ∃ t ∈ s :: ss, m ∈ r.scanStmt c before after t := by
      rcases ih hm with run | ⟨t, ht, hm⟩
      · exact .inl (run.cons s)
      · exact .inr ⟨t, List.mem_cons_of_mem s ht, hm⟩
    cases skip with
    | succ skip =>
      rw [scanRun] at hm
      exact later hm
    | zero =>
      rw [scanRun] at hm
      cases hfront : matchFront? c before first (s :: ss) with
      | none =>
        rw [hfront] at hm
        rcases List.mem_append.mp hm with hm | hm
        · exact .inr ⟨s, List.mem_cons_self, hm⟩
        · exact later hm
      | some found =>
        rw [hfront] at hm
        rcases List.mem_cons.mp hm with rfl | hm
        · obtain ⟨t, ht, front⟩ := List.exists_of_findSome?_eq_some hfront
          unfold BlockTemplate.matchFront? at front
          split at front
          · obtain ⟨b, hb, rfl⟩ := Option.map_eq_some_iff.mp front
            exact .inl ⟨[], _, (s :: ss).drop t.width, (List.take_append_drop _ _).symm,
              t, ht, b, hb, first, rfl⟩
          · exact absurd front (by simp)
        · exact later hm

/-- What a scan of a statement finds is a run of statements of a block in it. -/
theorem mem_scanStmt {m : RuleMatch} {s : Stmt} (hm : m ∈ r.scanStmt c before after s) :
    ∃ i ss, Stmt.block i ss ∈ s.stmts ∧ r.ReportsRun c before after ss m := by
  induction s using Stmt.induction with
  | step s ih =>
    have inner {t : Stmt} (ht : StmtPart.stmt t ∈ s.children)
        (hm : m ∈ r.scanStmt c before after t) :
        ∃ i ss, Stmt.block i ss ∈ s.stmts ∧ r.ReportsRun c before after ss m := by
      obtain ⟨i, ss, hblock, found⟩ := ih t ht hm
      refine ⟨i, ss, ?_, found⟩
      rw [Stmt.stmts_eq]
      exact List.mem_cons_of_mem _ (List.mem_flatMap.mpr ⟨.stmt t, ht, hblock⟩)
    cases hblock : s.isBlock with
    | false =>
      rw [scanStmt_of_not_block hblock] at hm
      obtain ⟨n, hn, hm⟩ := List.mem_flatMap.mp hm
      obtain ⟨part, hpart, rfl⟩ := List.mem_map.mp hn
      cases part with
      | expr e => exact absurd hm List.not_mem_nil
      | stmt t => exact inner hpart hm
    | true =>
      cases s with
      | block i ss =>
        rw [scanStmt] at hm
        rcases mem_scanRun hm with run | ⟨t, ht, hm⟩
        · refine ⟨i, ss, ?_, run⟩
          rw [Stmt.stmts_eq]
          exact List.mem_cons_self
        · exact inner (List.mem_map_of_mem ht) hm
      | _ => exact absurd hblock (by simp [Stmt.isBlock, Stmt.block?])

/-- What a rule about statements finds in a unit is a run of statements of a block. -/
theorem mem_scan_block {m : RuleMatch} (hr : r.body = .block before after) (hm : m ∈ r.scan c) :
    ∃ i ss, Stmt.block i ss ∈ c.unit.stmts ∧ r.ReportsRun c before after ss m := by
  obtain ⟨t, ht, hm⟩ := List.mem_flatMap.mp hm
  rcases List.mem_append.mp hm with hm | hm
  · obtain ⟨f, -, hm⟩ := List.mem_flatMap.mp hm
    rw [scanField, hr] at hm
    exact absurd hm List.not_mem_nil
  · obtain ⟨method, hmethod, hm⟩ := List.mem_flatMap.mp hm
    rw [scanBody, hr] at hm
    obtain ⟨i, ss, hblock, found⟩ := mem_scanStmt hm
    refine ⟨i, ss, List.mem_flatMap.mpr ⟨t, ht, ?_⟩, found⟩
    exact List.mem_flatMap.mpr ⟨method, hmethod, hblock⟩

/-- What a rule about expressions finds in a unit is an expression. -/
theorem mem_scan_expression {m : RuleMatch} {before : List ExpressionTemplate}
    {after : Option ExpressionTemplate} (hr : r.body = .expression before after)
    (hm : m ∈ r.scan c) :
    ∃ e ∈ c.unit.exprs, ∃ level b, m = r.reportExpr c after e level b := by
  obtain ⟨o, ho, -, b, level, -, report⟩ := exists_of_forall₂_of_mem (forall₂_scan hr) hm
  refine ⟨o.expr, ?_, level, b, report⟩
  rw [← CompilationUnit.map_expr_occurrences]
  exact List.mem_map_of_mem (List.mem_of_mem_filter ho)

/-- An edit of a fix of matching statements ends where one of them ends, and overlaps no
comment. -/
theorem edit_apart_of_reportRun {t : BlockTemplate} {run : List Stmt} {b : Bindings}
    {offset start : Nat} (lines : CommentedLines c.unit.source c.unit.comments offset run)
    (matched : t.matchRun? c run = some b) {f : Fix}
    (hf : (r.reportRun c after ⟨start, run, b⟩).fix = some f) {e : TextEdit}
    (he : e ∈ f.edits) :
    ∃ s ∈ run, e.span.stop = s.span.stop ∧
      ∀ k ∈ c.unit.comments, k.stop ≤ e.span.start ∨ e.span.stop ≤ k.start := by
  obtain ⟨x, ps, hx, replaced⟩ := exists_replaceEach_of_reportRun hf
  obtain ⟨s, hs, span⟩ := BlockTemplate.replaceEach_ensures_span x ps run _ _ _ replaced e he
  rw [hx] at span
  obtain ⟨covered, hspan, free⟩ := BlockTemplate.runSpan?_of_matchRun? matched
  have inside := (lines.runSpan hspan).1 s hs
  obtain ⟨first, -, own⟩ := lines.onLine_of_mem hs
  obtain ⟨stop, apart⟩ := own.apart span
  refine ⟨s, hs, stop, fun k hk => apart k hk ?_⟩
  cases h : s.span.contains k with
  | false => rfl
  | true => exact absurd (Span.contains_trans inside h) (by simp [free k hk])

/-- Every edit of a fix ends between two characters of the source and overlaps no comment. -/
theorem edit_apart_of_mem_scan {r : RefactoringRule} {c : MatchContext}
    (laidOut : c.unit.LaidOut) (small : c.unit.source.utf8ByteSize < Span.maxOffset)
    {m : RuleMatch} (hm : m ∈ r.scan c) {f : Fix} (hf : m.fix = some f) {e : TextEdit}
    (he : e ∈ f.edits) :
    TextAt c.unit.source e.span.stop "" ∧
      ∀ k ∈ c.unit.comments, k.stop ≤ e.span.start ∨ e.span.stop ≤ k.start := by
  have ends {n : SyntaxNode} (hn : n ∈ c.unit.nodes) : TextAt c.unit.source n.span.stop "" := by
    obtain ⟨start, l, laid, text⟩ := laidOut.exists_place_of_mem_nodes hn
    rw [laid.span_eq text small]
    exact text.inner l.toText "" (by simp)
  cases hr : r.body with
  | expression before after =>
    obtain ⟨x, hx, level, b, rfl⟩ := mem_scan_expression hr hm
    have own : e.span ∈ f.edits.map TextEdit.span := List.mem_map_of_mem he
    rw [edits_of_reportExpr hf, List.mem_singleton] at own
    have node := CompilationUnit.expr_mem_nodes hx
    rw [own]
    exact ⟨ends node, fun k hk => laidOut.apart_expr small node hk⟩
  | block before after =>
    obtain ⟨i, ss, hblock, front, run, back, rfl, t, -, b, matched, start, rfl⟩ :=
      mem_scan_block hr hm
    have node := CompilationUnit.stmt_mem_nodes hblock
    obtain ⟨offset, lines⟩ := laidOut.commentedLines small node
    obtain ⟨first, -, lines⟩ := lines.of_append
    obtain ⟨s, hs, stop, apart⟩ := edit_apart_of_reportRun lines.left matched hf he
    have member : s ∈ front ++ (run ++ back) :=
      List.mem_append_right _ (List.mem_append_left _ hs)
    have child : SyntaxNode.stmt s ∈ (SyntaxNode.stmt (.block i (front ++ (run ++ back)))).nodes :=
      SyntaxNode.mem_nodes_of_mem_children (List.mem_map_of_mem (List.mem_map_of_mem member))
    refine ⟨?_, apart⟩
    rw [stop]
    exact ends (CompilationUnit.nodes_trans node child)

/-- The comments of a laid-out unit are still there, in their order, after the fixes of some
matches of a rule. -/
theorem inOrder_mergedFix {r : RefactoringRule} {c : MatchContext} (laidOut : c.unit.LaidOut)
    (small : c.unit.source.utf8ByteSize < Span.maxOffset) {chosen : List RuleMatch}
    (h : chosen.Sublist (r.scan c)) :
    ∃ text, (RuleMatch.mergedFix chosen).apply c.unit = .ok text ∧
      InOrder (commentsOf c.unit.layout) text := by
  obtain ⟨-, chain⟩ := scannedBetween_scan r laidOut small
  have chain : SpanChain c.unit.importInsertionPoint.1 c.unit.source.utf8ByteSize
      ((RuleMatch.mergedFix chosen).edits.map TextEdit.span) := by
    rw [RuleMatch.edits_mergedFix]
    exact chain.sublist ((h.flatMap _).map _)
  obtain ⟨distinct, forward⟩ := Fix.queue_apart chain
  obtain ⟨kept, texts⟩ := laidOut.forall₂_comments small
  have clear {e : TextEdit}
      (he : e ∈ ((RuleMatch.mergedFix chosen).queue c.unit).edits) :
      TextAt c.unit.source e.span.stop "" ∧
        ∀ k ∈ c.unit.comments, k.stop ≤ e.span.start ∨ e.span.stop ≤ k.start := by
    rcases Fix.mem_queue he with he | span
    · rw [RuleMatch.edits_mergedFix] at he
      obtain ⟨m, hm, he⟩ := List.mem_flatMap.mp he
      obtain ⟨f, hf, he⟩ := RuleMatch.mem_edits he
      exact edit_apart_of_mem_scan laidOut small (h.subset hm) hf he
    · rw [span]
      exact laidOut.importOffset_apart small
  refine ⟨_, Fix.apply_eq chain, EditQueue.inOrder_apply texts kept distinct ?_ ?_⟩
  · exact fun e he => ⟨forward e he, (clear he).1⟩
  · exact fun e he => (clear he).2

/-- Comments survive every fix.  In a laid-out unit of less than the longest recordable text,
the source under the spans of the comments is the comments that the methods declare.  No edit
of a fix of a rule overlaps one, and all of them are still there, in their order, after the
fixes of any of the matches.  Consecutive statements of a block do not match if a comment
stands above one of them other than the first, or above a statement inside one of them that is
not itself in the header of a loop. -/
theorem scan_keepsComments (r : RefactoringRule) (table : ClassTable) (package : Option String)
    (imports : List Import) (types : List TypeDecl) (symbols : SymbolTable)
    (small : (textOf (layoutUnit package imports types)).utf8ByteSize < Span.maxOffset) :
    let u := CompilationUnit.ofDeclarations package imports types symbols
    let declared := types.flatMap TypeDecl.marked
    u.comments.map (fun k => k.slice? u.source) = declared.map some ∧
      (∀ m ∈ r.scan ⟨u, table⟩, ∀ f, m.fix = some f → ∀ e ∈ f.edits, ∀ k ∈ u.comments,
        e.span.overlaps k = false) ∧
      (∀ chosen, chosen.Sublist (r.scan ⟨u, table⟩) →
        ∃ text, (RuleMatch.mergedFix chosen).apply u = .ok text ∧ InOrder declared text) ∧
      ∀ i front run back, Stmt.block i (front ++ (run ++ back)) ∈ u.stmts →
        (∃ s ∈ run.tail, s.comments ≠ []) ∨ (∃ s ∈ run, ∃ n ∈ s.inner, n.comments ≠ []) →
          ∀ t : BlockTemplate, t.matchRun? ⟨u, table⟩ run = none := by
  intro u declared
  obtain ⟨laidOut, same, -⟩ :=
    CompilationUnit.ofDeclarations_laidOut package imports types symbols
  have small : u.source.utf8ByteSize < Span.maxOffset := small
  -- the comments of the layout are those that were declared
  have written : commentsOf u.layout = declared := by
    rw [same, commentsOf_layoutUnit]
  refine ⟨?_, ?_, ?_, ?_⟩
  · obtain ⟨-, texts⟩ := laidOut.forall₂_comments small
    rw [written] at texts
    rw [← List.forall₂_eq_eq_eq, List.forall₂_map_left_iff, List.forall₂_map_right_iff]
    refine texts.imp ?_
    rintro k t ⟨text, stop⟩
    have whole : k = ⟨k.start, k.start + t.utf8ByteSize⟩ := by rw [← stop]
    rw [whole]
    exact text.slice?_eq
  · intro m hm f hf e he k hk
    have apart := (edit_apart_of_mem_scan (c := ⟨u, table⟩) laidOut small hm hf he).2 k hk
    exact Span.overlaps_eq_false_iff.mpr apart
  · intro chosen h
    rw [← written]
    exact inOrder_mergedFix (c := ⟨u, table⟩) laidOut small h
  · intro i front run back hblock commented t
    obtain ⟨offset, lines⟩ :=
      laidOut.commentedLines small (CompilationUnit.stmt_mem_nodes hblock)
    obtain ⟨first, -, lines⟩ := lines.of_append
    exact BlockTemplate.matchRun?_eq_none (c := ⟨u, table⟩) lines.left commented

/-- A rule that deletes two empty statements in a row. -/
private def dropPair : RefactoringRule where
  name := "Rules.DropPair"
  body := .block [⟨⟨{}, .empty, []⟩, [.empty, .empty]⟩] (some ⟨⟨{}, .empty, []⟩, []⟩)
  options := {}

/-- A class with a method `public void run() { ; ; ; }` and a comment above the second empty
statement. -/
private def notedClass : TypeDecl where
  name := "A"
  fields := []
  methods := [⟨"run", [], .primitiveType (.ofType (.primitive .void)) .void, [],
    .block .synthetic [.empty .synthetic, .empty ⟨.synthetic, ["keep"]⟩, .empty .synthetic],
    false, .synthetic⟩]
  span := .synthetic

/-- Where the rule deletes the last two statements, the comment above the second one stays. -/
theorem scan_keepsComments_dropPair :
    (textOf (layoutUnit none [] [notedClass])).utf8ByteSize < Span.maxOffset ∧
      (let u := CompilationUnit.ofDeclarations none [] [notedClass] .empty
      let declared := [notedClass].flatMap TypeDecl.marked
      u.comments.map (fun k => k.slice? u.source) = declared.map some ∧
        (∀ m ∈ dropPair.scan ⟨u, .rootOnly⟩, ∀ f, m.fix = some f → ∀ e ∈ f.edits,
          ∀ k ∈ u.comments, e.span.overlaps k = false) ∧
        (∀ chosen, chosen.Sublist (dropPair.scan ⟨u, .rootOnly⟩) →
          ∃ text, (RuleMatch.mergedFix chosen).apply u = .ok text ∧ InOrder declared text) ∧
        ∀ i front run back, Stmt.block i (front ++ (run ++ back)) ∈ u.stmts →
          (∃ s ∈ run.tail, s.comments ≠ []) ∨
              (∃ s ∈ run, ∃ n ∈ s.inner, n.comments ≠ []) →
            ∀ t : BlockTemplate, t.matchRun? ⟨u, .rootOnly⟩ run = none) :=
  have small : (textOf (layoutUnit none [] [notedClass])).utf8ByteSize < Span.maxOffset := by
    decide
  ⟨small, dropPair.scan_keepsComments .rootOnly none [] [notedClass] .empty small⟩

end RefactoringRule

end JavaRefactor
