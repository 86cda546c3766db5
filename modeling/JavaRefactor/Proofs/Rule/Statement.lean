import JavaRefactor.Proofs.Rule.Lines

/-!
# Where a rule about statements reports matches

A scan goes through a block from left to right.  A match covers the statements at the front
of what is left, and the scan goes on behind it; where nothing matches, the scan goes into
the first statement.  In a laid-out block the statements stand on lines of their own, so what
a rule about statements finds in a laid-out statement lies there, one match after the other
(`RefactoringRule.scannedBetween_scanStmt`).
-/

namespace JavaRefactor

open Layout

/-- The statements of a match are the first ones, and there are some. -/
theorem BlockTemplate.stmts_of_matchFront? {t : BlockTemplate} {c : MatchContext} {start : Nat}
    {stmts : List Stmt} {found : BlockMatch} (h : t.matchFront? c start stmts = some found) :
    ∃ n span, n < stmts.length ∧ found.stmts = stmts.take (n + 1) ∧
      Stmt.runSpan? found.stmts = some span := by
  unfold matchFront? at h
  split at h
  · rename_i fits
    obtain ⟨b, hb, rfl⟩ := Option.map_eq_some_iff.mp h
    obtain ⟨b', -, hb⟩ := Option.bind_eq_some_iff.mp hb
    obtain ⟨span, hspan, -⟩ := Option.bind_eq_some_iff.mp hb
    obtain ⟨n, hn⟩ : ∃ n, t.width = n + 1 := by
      cases hw : t.width with
      | zero =>
        rw [hw, List.take_zero] at hspan
        exact absurd hspan (by simp [Stmt.runSpan?])
      | succ n => exact ⟨n, rfl⟩
    refine ⟨n, span, by omega, ?_, hspan⟩
    show stmts.take t.width = _
    rw [hn]
  · exact absurd h (by simp)

namespace RefactoringRule

variable {r : RefactoringRule} {c : MatchContext} {before : List BlockTemplate}
  {after : Option BlockTemplate}

/-- The edits of a fix of statements write the template over them. -/
theorem exists_replaceEach_of_reportRun {found : BlockMatch} {f : Fix}
    (h : (r.reportRun c after found).fix = some f) :
    ∃ (x : ExpansionContext) (ps : List StmtPattern), x.unit = c.unit ∧
      (BlockTemplate.replaceEach x ps found.stmts).run .empty = (.ok f.edits, f.imports) := by
  obtain ⟨t, -, hf⟩ := Option.bind_eq_some_iff.mp h
  have hf := Bindings.toOption_eq_some hf
  unfold BlockTemplate.replace at hf
  split at hf
  · rename_i edits imports run
    rw [← Except.ok.inj hf]
    exact ⟨_, t.stmts, rfl, run⟩
  · exact absurd hf (by simp)

/-- The report of statements on lines of their own covers these lines, and so do the edits. -/
theorem scannedBetween_reportRun {found : BlockMatch} {span : Span} {start stop : Nat}
    (lines : StmtLines c.unit.source start stop found.stmts)
    (hspan : Stmt.runSpan? found.stmts = some span) :
    ScannedBetween start stop [r.reportRun c after found] := by
  constructor
  · have whole : (r.reportRun c after found).span = span := by
      show found.span = span
      rw [BlockMatch.span, hspan, Option.getD_some]
    rw [List.map_singleton, whole]
    exact lines.runSpan hspan
  · rw [List.flatMap_cons, List.flatMap_nil, List.append_nil, RuleMatch.edits]
    cases hfix : (r.reportRun c after found).fix with
    | none => exact lines.le
    | some f =>
      obtain ⟨x, ps, hx, run⟩ := exists_replaceEach_of_reportRun hfix
      rw [← hx] at lines
      exact BlockTemplate.replaceEach_ensures ps lines _ _ _ run

/-- What a scan finds behind the statements that it passes over lies where the other
statements stand. -/
theorem scannedBetween_scanRun {stop : Nat} (ss : List Stmt)
    (each : ∀ s ∈ ss, ScannedBetween s.span.start s.span.stop (r.scanStmt c before after s))
    (first skip start : Nat) (lines : StmtLines c.unit.source start stop (ss.drop skip)) :
    ScannedBetween start stop (r.scanRun c before after first skip ss) := by
  induction ss generalizing first skip start with
  | nil =>
    rw [scanRun]
    exact .nil lines.le
  | cons s ss ih =>
    have ih := ih fun t ht => each t (List.mem_cons_of_mem s ht)
    cases skip with
    | succ skip =>
      rw [scanRun]
      exact ih (first + 1) skip start lines
    | zero =>
      rw [scanRun]
      cases hfront : matchFront? c before first (s :: ss) with
      | some found =>
        obtain ⟨t, -, ht⟩ := List.exists_of_findSome?_eq_some hfront
        obtain ⟨n, span, fits, hstmts, hspan⟩ := BlockTemplate.stmts_of_matchFront? ht
        obtain ⟨mid, covered, rest⟩ := lines.split (n + 1)
        have length : found.stmts.length - 1 = n := by
          rw [hstmts, List.length_take]
          omega
        rw [List.drop_zero, ← hstmts] at covered
        have report : ScannedBetween start mid [r.reportRun c after found] :=
          scannedBetween_reportRun covered hspan
        show ScannedBetween start stop ([r.reportRun c after found]
          ++ r.scanRun c before after (first + 1) (found.stmts.length - 1) ss)
        rw [length]
        exact report.append (ih (first + 1) n mid rest)
      | none =>
        obtain ⟨⟨gap, -, -, follows⟩, own, rest⟩ := lines
        have inside := (each s List.mem_cons_self).mono_start
          (show start ≤ s.span.start by omega)
        exact inside.append (ih (first + 1) 0 s.span.stop rest)

/-- What a rule about statements does at a part of a statement. -/
def scanStmtPart (r : RefactoringRule) (c : MatchContext) (before : List BlockTemplate)
    (after : Option BlockTemplate) : SyntaxNode → List RuleMatch
  | .stmt s => r.scanStmt c before after s
  | _ => []

/-- Statements are scanned one by one. -/
theorem scanEach_eq (ss : List Stmt) :
    r.scanEach c before after ss = ss.flatMap (r.scanStmt c before after) := by
  induction ss with
  | nil => rw [scanEach, List.flatMap_nil]
  | cons s ss ih => rw [scanEach, ih, List.flatMap_cons]

/-- A statement that is no block is scanned part by part. -/
theorem scanStmt_of_not_block {s : Stmt} (h : s.isBlock = false) :
    r.scanStmt c before after s
      = (SyntaxNode.stmt s).children.flatMap (r.scanStmtPart c before after) := by
  -- statements are not looked for in expressions
  have exprs (es : List Expr) :
      (es.map SyntaxNode.expr).flatMap (r.scanStmtPart c before after) = [] := by
    rw [List.flatMap_map, List.flatMap_eq_nil_iff]
    exact fun _ _ => rfl
  cases s with
  | block i stmts => exact absurd h (by simp [Stmt.isBlock, Stmt.block?])
  | ifElse i cond yes no =>
    cases no <;> simp [scanStmt, scanOption, SyntaxNode.children, Stmt.children, StmtPart.node,
      scanStmtPart]
  | forLoop i init cond update body =>
    have inits : (init.map SyntaxNode.stmt).flatMap (r.scanStmtPart c before after)
        = init.flatMap (r.scanStmt c before after) := by
      rw [List.flatMap_map]
      rfl
    have parts : (SyntaxNode.stmt (.forLoop i init cond update body)).children
        = init.map .stmt ++ (cond.toList ++ update).map .expr ++ [.stmt body] := by
      simp [SyntaxNode.children, Stmt.children, StmtPart.node, Function.comp_def]
    rw [scanStmt, scanEach_eq, parts, List.flatMap_append, List.flatMap_append, inits, exprs]
    simp [scanStmtPart]
  | ret i value =>
    cases value <;> simp [scanStmt, SyntaxNode.children, Stmt.children, StmtPart.node,
      scanStmtPart]
  | forEach i var iterable body =>
    have parts : (SyntaxNode.stmt (.forEach i var iterable body)).children
        = (var.children ++ [iterable]).map .expr ++ [.stmt body] := by
      simp [SyntaxNode.children, Stmt.children, StmtPart.node, Function.comp_def]
    rw [scanStmt, parts, List.flatMap_append, exprs]
    simp [scanStmtPart]
  | declare i decl =>
    have parts : (SyntaxNode.stmt (.declare i decl)).children = decl.children.map .expr := by
      simp [SyntaxNode.children, Stmt.children, StmtPart.node, Function.comp_def]
    rw [scanStmt, parts, exprs]
  | whileLoop | doLoop | raise | synchronized | expr | empty =>
    simp [scanStmt, SyntaxNode.children, Stmt.children, StmtPart.node, scanStmtPart]

/-- The statements of a laid-out block stand on lines of their own inside the block. -/
theorem exists_stmtLines_block {source : String} (small : source.utf8ByteSize < Span.maxOffset)
    {i : StmtInfo} {ss : List Stmt} {start : Nat} {l : Layout}
    (h : SyntaxNode.LaidAt start l (.stmt (.block i ss)))
    (text : TextAt source start l.toText) :
    ∃ first, start ≤ first ∧ StmtLines source first (start + l.width) ss := by
  cases ss with
  | nil => exact ⟨start, Nat.le_refl _, Nat.le_add_right _ _⟩
  | cons s ss =>
    obtain ⟨ind, closing, rfl, laid⟩ := h.block_cons
    rw [width]
    rw [toText, textOf_append, textOf_append] at text ⊢
    have lines := StmtLines.of_laidAt small text.append.2.append.1 laid
    refine ⟨_, Nat.le_add_right _ _, lines.mono_stop ?_⟩
    rw [String.utf8ByteSize_append, String.utf8ByteSize_append]
    omega

/-- What a rule about statements finds in a laid-out statement lies there. -/
theorem scannedBetween_scanStmt (small : c.unit.source.utf8ByteSize < Span.maxOffset) (s : Stmt)
    (start : Nat) (l : Layout) (h : SyntaxNode.LaidAt start l (.stmt s))
    (text : TextAt c.unit.source start l.toText) :
    ScannedBetween start (start + l.width) (r.scanStmt c before after s) := by
  induction s using Stmt.induction generalizing start l with
  | step s ih =>
    cases hblock : s.isBlock with
    | false =>
      rw [scanStmt_of_not_block hblock]
      refine scannedBetween_children h text ?_
      intro n hn start l laid text
      obtain ⟨part, hpart, rfl⟩ := List.mem_map.mp hn
      cases part with
      | expr e => exact .nil (Nat.le_add_right _ _)
      | stmt t => exact ih t hpart start l laid text
    | true =>
      cases s with
      | block i ss =>
        rw [scanStmt]
        obtain ⟨first, le, lines⟩ := exists_stmtLines_block small h text
        refine (scannedBetween_scanRun ss ?_ 0 0 first lines).mono_start le
        intro t ht
        have child : StmtPart.stmt t ∈ (Stmt.block i ss).children := List.mem_map_of_mem ht
        obtain ⟨start, l, laid, text⟩ := h.exists_child text (List.mem_map_of_mem child)
        have span : t.span = ⟨start, start + l.width⟩ := laid.span_eq text small
        rw [span]
        exact ih t child start l laid text
      | _ => exact absurd hblock (by simp [Stmt.isBlock, Stmt.block?])

end RefactoringRule

end JavaRefactor
