import JavaRefactor.Proofs.Matching.Extension
import JavaRefactor.Proofs.Layout.Chain
import JavaRefactor.Proofs.Unit.Spans
import JavaRefactor.Rule.Scan

/-!
# Where a scan reports matches

A scan goes through a laid-out node from left to right, and what it reports lies where it
looks: `ScannedBetween start stop found` says that the spans of some matches are a chain
between two offsets, and the spans of their edits too.  Scanning the children of a node in
turn keeps this (`scannedBetween_children`), so it holds of every rule about expressions
(`scannedBetween_scanExpr`, `scannedBetween_scanExprsOf`).
-/

namespace JavaRefactor

open Layout

/-- The edits of a match. -/
def RuleMatch.edits (m : RuleMatch) : List TextEdit := (m.fix.map Fix.edits).getD []

/-- The edits of a match are those of its fix. -/
theorem RuleMatch.mem_edits {m : RuleMatch} {e : TextEdit} (h : e ∈ m.edits) :
    ∃ f, m.fix = some f ∧ e ∈ f.edits := by
  unfold edits at h
  cases hf : m.fix with
  | none =>
    rw [hf] at h
    exact absurd h List.not_mem_nil
  | some f =>
    rw [hf] at h
    exact ⟨f, rfl, h⟩

/-- Matches and their edits lie between two offsets, one after the other. -/
structure ScannedBetween (start stop : Nat) (found : List RuleMatch) : Prop where
  spans : SpanChain start stop (found.map RuleMatch.span)
  edits : SpanChain start stop ((found.flatMap RuleMatch.edits).map TextEdit.span)

namespace ScannedBetween

variable {start stop : Nat} {found more : List RuleMatch}

/-- No matches lie between any offsets in order. -/
theorem nil (h : start ≤ stop) : ScannedBetween start stop [] := ⟨h, h⟩

/-- What lies behind an offset lies behind those in front of it. -/
theorem mono_start {start' : Nat} (h : ScannedBetween start stop found) (le : start' ≤ start) :
    ScannedBetween start' stop found :=
  ⟨h.spans.mono_start le, h.edits.mono_start le⟩

/-- Matches up to an offset and matches behind it lie one after the other. -/
theorem append {mid : Nat} (h : ScannedBetween start mid found)
    (h' : ScannedBetween mid stop more) : ScannedBetween start stop (found ++ more) := by
  constructor
  · rw [List.map_append]
    exact h.spans.append h'.spans
  · rw [List.flatMap_append, List.map_append]
    exact h.edits.append h'.edits

end ScannedBetween

/-- Scanning what stands at places one after the other, in their order, goes from left to
right. -/
theorem scannedBetween_flatMap {α : Type} {scan : α → List RuleMatch} {start stop : Nat}
    {ps : List (Nat × Layout)} {as : List α}
    (h : List.Forall₂ (fun p a => ScannedBetween p.1 (p.1 + p.2.width) (scan a)) ps as)
    (ordered : ps.Pairwise fun p q => p.1 + p.2.width ≤ q.1)
    (inside : ∀ p ∈ ps, start ≤ p.1 ∧ p.1 + p.2.width ≤ stop) (le : start ≤ stop) :
    ScannedBetween start stop (as.flatMap scan) := by
  induction h generalizing start with
  | nil => exact .nil le
  | @cons p a ps as first _ ih =>
    obtain ⟨later, ordered⟩ := List.pairwise_cons.mp ordered
    obtain ⟨lower, upper⟩ := inside p List.mem_cons_self
    have rest : ScannedBetween (p.1 + p.2.width) stop (as.flatMap scan) :=
      ih ordered (fun q hq => ⟨later q hq, (inside q (List.mem_cons_of_mem p hq)).2⟩) upper
    rw [List.flatMap_cons]
    exact (first.mono_start lower).append rest

/-- Scanning what stands at the places of some layouts, in their order, goes from their start
to their end. -/
theorem scannedBetween_places {α : Type} {scan : α → List RuleMatch} {start : Nat}
    {ls : List Layout} {as : List α}
    (h : List.Forall₂ (fun p a => ScannedBetween p.1 (p.1 + p.2.width) (scan a))
      (places start ls) as) :
    ScannedBetween start (start + (textOf ls).utf8ByteSize) (as.flatMap scan) :=
  scannedBetween_flatMap h (pairwise_places start ls)
    (fun _ hp => ⟨le_of_mem_places hp, stop_le_of_mem_places hp⟩) (Nat.le_add_right _ _)

/-- What a scan of each child reports lies in the child, so what the scans of all children
report in turn lies in the node. -/
theorem scannedBetween_children {source : String} {start : Nat} {l : Layout} {n : SyntaxNode}
    {scan : SyntaxNode → List RuleMatch} (h : SyntaxNode.LaidAt start l n)
    (text : TextAt source start l.toText)
    (each : ∀ c ∈ n.children, ∀ start l, SyntaxNode.LaidAt start l c →
      TextAt source start l.toText → ScannedBetween start (start + l.width) (scan c)) :
    ScannedBetween start (start + l.width) (n.children.flatMap scan) := by
  obtain ⟨printed, hspan, count, child⟩ := h
  refine scannedBetween_places (List.forall₂_iff_zip.mpr ⟨count, ?_⟩)
  intro p c hpc
  obtain ⟨hp, hc⟩ := List.of_mem_zip hpc
  exact each c hc p.1 p.2 (child _ hpc) (text.place hp)

namespace RefactoringRule

variable {r : RefactoringRule} {c : MatchContext}

/-! ### Rules about expressions -/

section Expressions

variable {before : List ExpressionTemplate} {after : Option ExpressionTemplate}

/-- The fix of an expression has one edit, which has the span of the expression. -/
theorem edits_of_reportExpr {e : Expr} {level : Nat} {b : Bindings} {f : Fix}
    (h : (r.reportExpr c after e level b).fix = some f) :
    f.edits.map TextEdit.span = [e.span] := by
  obtain ⟨t, -, hf⟩ := Option.bind_eq_some_iff.mp h
  have hf := Bindings.toOption_eq_some hf
  unfold ExpressionTemplate.replace at hf
  split at hf
  · rw [← Except.ok.inj hf]
    rfl
  · exact absurd hf (by simp)

/-- The report of an expression has its span, and so has the edit. -/
theorem scannedBetween_reportExpr {e : Expr} {level : Nat} {b : Bindings}
    (h : e.span.start ≤ e.span.stop) :
    ScannedBetween e.span.start e.span.stop [r.reportExpr c after e level b] := by
  refine ⟨⟨Nat.le_refl _, h, Nat.le_refl _⟩, ?_⟩
  rw [List.flatMap_cons, List.flatMap_nil, List.append_nil, RuleMatch.edits]
  cases hfix : (r.reportExpr c after e level b).fix with
  | none => exact h
  | some f =>
    rw [Option.map_some, Option.getD_some, edits_of_reportExpr hfix]
    exact ⟨Nat.le_refl _, h, Nat.le_refl _⟩

/-- The scan of an expression in which the rule does not match scans its children. -/
theorem scanExpr_of_none {e : Expr} {level : Nat} (h : matchExpr? c before e = none) :
    r.scanExpr c before after e level
      = e.places.flatMap fun place => r.scanExpr c before after place.1 place.2 := by
  have whole : e.places.flatMap (fun place => r.scanExpr c before after place.1 place.2)
      = e.places.attach.flatMap fun place =>
        r.scanExpr c before after place.1.1 place.1.2 := by
    conv_lhs => rw [← List.attach_map_subtype_val e.places, List.flatMap_map]
  rw [scanExpr, h, whole]

/-- What a rule finds in a laid-out expression lies there. -/
theorem scannedBetween_scanExpr {source : String} (small : source.utf8ByteSize < Span.maxOffset)
    (e : Expr) (level start : Nat) (l : Layout) (h : SyntaxNode.LaidAt start l (.expr e))
    (text : TextAt source start l.toText) :
    ScannedBetween start (start + l.width) (r.scanExpr c before after e level) := by
  induction e using Expr.induction generalizing level start l with
  | step e ih =>
    cases hmatch : matchExpr? c before e with
    | some b =>
      have span : e.span = ⟨start, start + l.width⟩ := h.span_eq text small
      have report : ScannedBetween e.span.start e.span.stop
          [r.reportExpr c after e level b] := by
        refine scannedBetween_reportExpr ?_
        rw [span]
        exact Nat.le_add_right _ _
      rw [span] at report
      rw [scanExpr, hmatch]
      exact report
    | none =>
      obtain @⟨_, parts, _, printed, hspan, count, child⟩ := h
      rw [scanExpr_of_none hmatch]
      refine scannedBetween_places (List.forall₂_iff_zip.mpr ⟨?_, ?_⟩)
      · rw [count, SyntaxNode.children, List.length_map, ← Expr.map_fst_places, List.length_map]
      · intro p place hp
        have paired : (p, SyntaxNode.expr place.1)
            ∈ (places start parts).zip (SyntaxNode.expr e).children := by
          rw [SyntaxNode.children, ← Expr.map_fst_places, List.map_map, List.zip_map_right]
          exact List.mem_map.mpr ⟨(p, place), hp, rfl⟩
        obtain ⟨hp, hplace⟩ := List.of_mem_zip hp
        have inside : place.1 ∈ e.children := by
          rw [← Expr.map_fst_places]
          exact List.mem_map_of_mem hplace
        exact ih place.1 inside place.2 p.1 p.2 (child _ paired) (text.place hp)

/-- What a rule about expressions does at a part of a statement. -/
def scanExprPart (r : RefactoringRule) (c : MatchContext) (before : List ExpressionTemplate)
    (after : Option ExpressionTemplate) : SyntaxNode → List RuleMatch
  | .expr e => r.scanExpr c before after e Expr.assignLevel
  | .stmt s => r.scanExprsOf c before after s
  | _ => []

/-- The expressions of a statement are scanned part by part. -/
theorem scanExprsOf_eq (s : Stmt) :
    r.scanExprsOf c before after s
      = (SyntaxNode.stmt s).children.flatMap (r.scanExprPart c before after) := by
  have whole : s.children.flatMap (fun part => r.scanExprPart c before after part.node)
      = s.children.attach.flatMap fun part => r.scanExprPart c before after part.1.node := by
    conv_lhs => rw [← List.attach_map_subtype_val s.children, List.flatMap_map]
  rw [scanExprsOf, SyntaxNode.children, List.flatMap_map, whole]
  congr 1
  funext part
  obtain ⟨part, hpart⟩ := part
  cases part <;> rfl

/-- What a rule about expressions finds in a laid-out statement lies there. -/
theorem scannedBetween_scanExprsOf {source : String}
    (small : source.utf8ByteSize < Span.maxOffset) (s : Stmt) (start : Nat) (l : Layout)
    (h : SyntaxNode.LaidAt start l (.stmt s)) (text : TextAt source start l.toText) :
    ScannedBetween start (start + l.width) (r.scanExprsOf c before after s) := by
  induction s using Stmt.induction generalizing start l with
  | step s ih =>
    rw [scanExprsOf_eq]
    refine scannedBetween_children h text ?_
    intro n hn start l laid text
    obtain ⟨part, hpart, rfl⟩ := List.mem_map.mp hn
    cases part with
    | expr e => exact scannedBetween_scanExpr small e Expr.assignLevel start l laid text
    | stmt t => exact ih t hpart start l laid text

end Expressions

end RefactoringRule

end JavaRefactor
