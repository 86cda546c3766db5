import JavaRefactor.Proofs.Layout.Node

/-!
# The shape of the layout of statements

The layout of a statement holds one node, after the comments above the statement.  The
subnodes of that node are layouts of the parts of the statement, in their order
(`Stmt.subnodes_parts`).  As with expressions, replacing parts by ones that are written
alike keeps how the statement is written (`Stmt.WrittenAlike.withParts`).
-/

namespace JavaRefactor

open Layout

namespace Stmt

/-- Comments are no nodes. -/
@[simp] theorem subnodes_layoutComments (ind : Indent) (comments : List String) :
    subnodes (layoutComments ind comments) = [] := by
  induction comments with
  | nil => rfl
  | cons c cs ih =>
    rw [layoutComments, List.flatMap_cons, subnodes_append]
    exact ih

/-- Without a source, a statement is printed from its parts. -/
theorem captureOrPrint_none (info : StmtInfo) (ind : Indent) (inHeader : Bool)
    (parts : List Layout) :
    captureOrPrint none info ind inHeader parts
      = (if inHeader then [] else layoutComments ind info.comments) ++ [.node parts] := by
  have nothing : sourceText? none info.span = none := by
    unfold sourceText?
    split <;> rfl
  rw [captureOrPrint, nothing]
  cases inHeader <;> rfl

/-- A statement is one node. -/
@[simp] theorem subnodes_captureOrPrint (info : StmtInfo) (ind : Indent) (inHeader : Bool)
    (parts : List Layout) :
    subnodes (captureOrPrint none info ind inHeader parts) = [.node parts] := by
  rw [captureOrPrint_none, subnodes_append]
  cases inHeader with
  | false => rw [if_neg Bool.false_ne_true, subnodes_layoutComments]; rfl
  | true => rfl

/-- The layout of a statement: the comments above it, unless it stands in the header of a
loop, and then one node. -/
theorem exists_layout_eq (s : Stmt) (ind : Indent) (inHeader : Bool) :
    ∃ parts, s.layout none ind inHeader
      = (if inHeader then [] else layoutComments ind s.comments) ++ [.node parts] := by
  cases s with
  | block i stmts =>
    cases stmts with
    | nil => exact ⟨_, by rw [layout, captureOrPrint_none]; rfl⟩
    | cons s ss => exact ⟨_, by rw [layout, captureOrPrint_none]; rfl⟩
  | ifElse i cond yes no =>
    cases no with
    | none => exact ⟨_, by rw [layout, captureOrPrint_none]; rfl⟩
    | some no => exact ⟨_, by rw [layout, captureOrPrint_none]; rfl⟩
  | ret i value =>
    cases value with
    | none => exact ⟨_, by rw [layout, captureOrPrint_none]; rfl⟩
    | some value => exact ⟨_, by rw [layout, captureOrPrint_none]; rfl⟩
  | forLoop i init cond update body =>
    cases cond with
    | none => exact ⟨_, by rw [layout, captureOrPrint_none]; rfl⟩
    | some cond => exact ⟨_, by rw [layout, captureOrPrint_none]; rfl⟩
  | _ => exact ⟨_, by rw [layout, captureOrPrint_none]; rfl⟩

/-- The layout of a statement has one node of its own. -/
theorem exists_subnodes_layout (s : Stmt) (ind : Indent) (inHeader : Bool) :
    ∃ parts, subnodes (s.layout none ind inHeader) = [.node parts] := by
  obtain ⟨parts, h⟩ := s.exists_layout_eq ind inHeader
  refine ⟨parts, ?_⟩
  rw [h, subnodes_append]
  cases inHeader with
  | false => rw [if_neg Bool.false_ne_true, subnodes_layoutComments]; rfl
  | true => rfl

end Stmt

/-- Layouts of some nodes, one by one. -/
abbrev LaidOutEach (ls : List Layout) (ns : List SyntaxNode) : Prop :=
  List.Forall₂ SyntaxNode.LaidOutAs ls ns

namespace LaidOutEach

/-- Layouts side by side are those of the nodes of both. -/
theorem append {ls ls' : List Layout} {ns ns' : List SyntaxNode} (h : LaidOutEach ls ns)
    (h' : LaidOutEach ls' ns') : LaidOutEach (ls ++ ls') (ns ++ ns') :=
  List.rel_append h h'

/-- Expressions are laid out one by one. -/
theorem exprs (es : List Expr) :
    LaidOutEach (es.map (Expr.layout none)) (es.map SyntaxNode.expr) := by
  induction es with
  | nil => exact .nil
  | cons e es ih => exact .cons rfl ih

/-- An expression is laid out as one node. -/
theorem expr (e : Expr) : LaidOutEach [e.layout none] [.expr e] := .cons rfl .nil

/-- A statement is laid out as one node. -/
theorem stmt (s : Stmt) (ind : Indent) (inHeader : Bool) :
    LaidOutEach (subnodes (s.layout none ind inHeader)) [.stmt s] := by
  obtain ⟨parts, h⟩ := s.exists_subnodes_layout ind inHeader
  rw [h]
  exact .cons ⟨ind, inHeader, h⟩ .nil

/-- The lines of some statements have a node for each. -/
theorem lines (ind : Indent) (ss : List Stmt) :
    LaidOutEach (subnodes (Stmt.layoutLines none ind ss)) (ss.map SyntaxNode.stmt) := by
  induction ss with
  | nil => exact .nil
  | cons s ss ih =>
    rw [Stmt.layoutLines, List.cons_append, subnodes_text, subnodes_append]
    exact (stmt s ind false).append ih

/-- The header of a loop has a node for each of its statements. -/
theorem header (ind : Indent) (ss : List Stmt) :
    LaidOutEach ((Stmt.layoutHeader none ind ss).flatMap subnodes) (ss.map SyntaxNode.stmt) := by
  induction ss with
  | nil => exact .nil
  | cons s ss ih =>
    rw [Stmt.layoutHeader, List.flatMap_cons]
    exact (stmt s ind true).append ih

/-- A declaration has a node for each of its expressions. -/
theorem decl (d : VarDecl) :
    LaidOutEach (subnodes (d.layout none)) (d.children.map SyntaxNode.expr) := by
  have split : subnodes (d.layout none) = d.children.map (Expr.layout none) := by
    obtain ⟨name, type, init, symbol, isFinal⟩ := d
    cases isFinal <;> cases init <;> simp [VarDecl.layout, VarDecl.children]
  rw [split]
  exact exprs d.children

end LaidOutEach

namespace Stmt

/-- There are no nodes in the end of a statement. -/
@[simp] theorem subnodes_terminator (inHeader : Bool) : subnodes (terminator inHeader) = [] := by
  cases inHeader <;> rfl

/-- The subnodes of a statement are layouts of its parts. -/
theorem subnodes_parts {s : Stmt} {parts : List Layout}
    (h : (SyntaxNode.stmt s).LaidOutAs (.node parts)) :
    LaidOutEach (subnodes parts) (SyntaxNode.stmt s).children := by
  obtain ⟨ind, inHeader, h⟩ := h
  -- With nothing to capture from, the parts are those that the form is printed from.
  have inner {ps : List Layout} {i : StmtInfo}
      (h : subnodes (captureOrPrint none i ind inHeader ps) = [.node parts]) : ps = parts := by
    rw [subnodes_captureOrPrint] at h
    exact Layout.node.inj (List.cons.inj h).1
  cases s with
  | block i stmts =>
    cases stmts with
    | nil =>
      rw [layout] at h
      rw [← inner h]
      exact .nil
    | cons s ss =>
      rw [layout] at h
      rw [← inner h]
      have lines := LaidOutEach.lines ind.deeper (s :: ss)
      simpa [SyntaxNode.children, children, StmtPart.node, Function.comp_def] using lines
  | ifElse i cond yes no =>
    have first := (LaidOutEach.expr cond).append (.stmt yes (ind.ofBody yes) false)
    cases no with
    | none =>
      rw [layout] at h
      rw [← inner h]
      simpa [SyntaxNode.children, children, StmtPart.node] using first
    | some no =>
      rw [layout] at h
      rw [← inner h]
      have second := LaidOutEach.stmt no (if no.isIf then ind else ind.ofBody no) false
      simpa [SyntaxNode.children, children, StmtPart.node] using first.append second
  | whileLoop i cond body =>
    rw [layout] at h
    rw [← inner h]
    have parts := (LaidOutEach.expr cond).append (.stmt body (ind.ofBody body) false)
    simpa [SyntaxNode.children, children, StmtPart.node] using parts
  | doLoop i body cond =>
    rw [layout] at h
    rw [← inner h]
    have parts := (LaidOutEach.stmt body (ind.ofBody body) false).append (.expr cond)
    simpa [SyntaxNode.children, children, StmtPart.node] using parts
  | forLoop i init cond update body =>
    have first := LaidOutEach.header ind init
    have third : LaidOutEach (subnodes (if update.isEmpty then []
        else .text " " :: separated ", " (Expr.layoutArgs none update)))
        (update.map SyntaxNode.expr) := by
      cases update with
      | nil => exact .nil
      | cons e es => simpa using LaidOutEach.exprs (e :: es)
    have fourth := LaidOutEach.stmt body (ind.ofBody body) false
    cases cond with
    | none =>
      rw [layout] at h
      rw [← inner h]
      simpa [SyntaxNode.children, children, StmtPart.node, Function.comp_def]
        using first.append (third.append fourth)
    | some cond =>
      rw [layout] at h
      rw [← inner h]
      simpa [SyntaxNode.children, children, StmtPart.node, Function.comp_def]
        using first.append ((LaidOutEach.expr cond).append (third.append fourth))
  | forEach i var iterable body =>
    rw [layout] at h
    rw [← inner h]
    have parts := (LaidOutEach.decl var).append
      ((LaidOutEach.expr iterable).append (.stmt body (ind.ofBody body) false))
    simpa [SyntaxNode.children, children, StmtPart.node, Function.comp_def] using parts
  | ret i value =>
    cases value with
    | none =>
      rw [layout] at h
      rw [← inner h]
      exact .nil
    | some value =>
      rw [layout] at h
      rw [← inner h]
      simpa [SyntaxNode.children, children, StmtPart.node] using LaidOutEach.expr value
  | raise i value =>
    rw [layout] at h
    rw [← inner h]
    simpa [SyntaxNode.children, children, StmtPart.node] using LaidOutEach.expr value
  | synchronized i lock body =>
    rw [layout] at h
    rw [← inner h]
    have parts := (LaidOutEach.expr lock).append (.stmt body (ind.ofBody body) false)
    simpa [SyntaxNode.children, children, StmtPart.node] using parts
  | expr i value =>
    rw [layout] at h
    rw [← inner h]
    simpa [SyntaxNode.children, children, StmtPart.node] using LaidOutEach.expr value
  | empty i =>
    rw [layout] at h
    rw [← inner h]
    exact .nil
  | declare i decl =>
    rw [layout] at h
    rw [← inner h]
    simpa [SyntaxNode.children, children, StmtPart.node, Function.comp_def]
      using LaidOutEach.decl decl

/-! ### Statements that are written alike -/

/-- Two statements have the same layouts and look the same to the statements around them. -/
structure WrittenAlike (s t : Stmt) : Prop where
  layout : ∀ ind inHeader, s.layout none ind inHeader = t.layout none ind inHeader
  isBlock : s.isBlock = t.isBlock
  isIf : s.isIf = t.isIf

namespace WrittenAlike

variable {s t : Stmt}

/-- A statement is written like itself. -/
theorem refl (s : Stmt) : WrittenAlike s s := ⟨fun _ _ => rfl, rfl, rfl⟩

/-- Statements that are written like one that is written like a third one are written like that. -/
theorem trans {u : Stmt} (h : WrittenAlike s t) (h' : WrittenAlike t u) : WrittenAlike s u :=
  ⟨fun ind inHeader => (h.layout ind inHeader).trans (h'.layout ind inHeader),
    h.isBlock.trans h'.isBlock, h.isIf.trans h'.isIf⟩

/-- The bodies of statements are indented alike if the bodies are written alike. -/
theorem ofBody (h : WrittenAlike s t) (ind : Indent) : ind.ofBody s = ind.ofBody t := by
  rw [Indent.ofBody, Indent.ofBody, h.isBlock]

/-- The same stands before bodies that are written alike. -/
theorem beforeBody (h : WrittenAlike s t) (ind : Indent) : ind.beforeBody s = ind.beforeBody t := by
  rw [Indent.beforeBody, Indent.beforeBody, h.isBlock]

variable {ss ts : List Stmt}

/-- Statements that are written alike have the same lines. -/
theorem layoutLines (h : List.Forall₂ WrittenAlike ss ts) (ind : Indent) :
    Stmt.layoutLines none ind ss = Stmt.layoutLines none ind ts := by
  induction h with
  | nil => rfl
  | cons hst _ ih => rw [Stmt.layoutLines, Stmt.layoutLines, hst.layout, ih]

/-- Statements that are written alike give the same header of a loop. -/
theorem layoutHeader (h : List.Forall₂ WrittenAlike ss ts) (ind : Indent) :
    Stmt.layoutHeader none ind ss = Stmt.layoutHeader none ind ts := by
  induction h with
  | nil => rfl
  | cons hst _ ih => rw [Stmt.layoutHeader, Stmt.layoutHeader, hst.layout, ih]

/-- A span is not written. -/
theorem withSpan (s : Stmt) (span : Span) : WrittenAlike (s.withSpan span) s := by
  have same (i : StmtInfo) (ind : Indent) (inHeader : Bool) (parts : List Layout) :
      captureOrPrint none ⟨span, i.comments⟩ ind inHeader parts
        = captureOrPrint none i ind inHeader parts := by
    rw [captureOrPrint_none, captureOrPrint_none]
  cases s with
  | block i stmts =>
    refine ⟨?_, rfl, rfl⟩
    intro ind inHeader
    cases stmts with
    | nil => rw [Stmt.withSpan, withInfo, Stmt.layout, Stmt.layout]; exact same i ind inHeader _
    | cons s ss =>
      rw [Stmt.withSpan, withInfo, Stmt.layout, Stmt.layout]; exact same i ind inHeader _
  | ifElse i cond yes no =>
    refine ⟨?_, rfl, rfl⟩
    intro ind inHeader
    cases no with
    | none => rw [Stmt.withSpan, withInfo, Stmt.layout, Stmt.layout]; exact same i ind inHeader _
    | some no =>
      rw [Stmt.withSpan, withInfo, Stmt.layout, Stmt.layout]; exact same i ind inHeader _
  | forLoop i init cond update body =>
    refine ⟨?_, rfl, rfl⟩
    intro ind inHeader
    cases cond with
    | none => rw [Stmt.withSpan, withInfo, Stmt.layout, Stmt.layout]; exact same i ind inHeader _
    | some cond =>
      rw [Stmt.withSpan, withInfo, Stmt.layout, Stmt.layout]; exact same i ind inHeader _
  | ret i value =>
    refine ⟨?_, rfl, rfl⟩
    intro ind inHeader
    cases value with
    | none => rw [Stmt.withSpan, withInfo, Stmt.layout, Stmt.layout]; exact same i ind inHeader _
    | some value =>
      rw [Stmt.withSpan, withInfo, Stmt.layout, Stmt.layout]; exact same i ind inHeader _
  | whileLoop i | doLoop i | forEach i | raise i | synchronized i | expr i | empty i
  | declare i =>
    refine ⟨?_, rfl, rfl⟩
    intro ind inHeader
    rw [Stmt.withSpan, withInfo, Stmt.layout, Stmt.layout]
    exact same i ind inHeader _

end WrittenAlike

end Stmt

/-- A declaration is written as before when its expressions are replaced by ones that are
written alike. -/
theorem VarDecl.layout_withChildren {d : VarDecl} {cs : List Expr}
    (h : List.Forall₂ Expr.WrittenAlike cs d.children) :
    (d.withChildren cs).layout none = d.layout none := by
  obtain ⟨name, type, init, symbol, isFinal⟩ := d
  cases init with
  | none =>
    obtain _ | ⟨ht, _⟩ := h
    simp only [withChildren, layout, List.getD_cons_zero, Option.map_none, ht.layout]
  | some init =>
    obtain _ | ⟨ht, _ | ⟨hi, _⟩⟩ := h
    simp only [withChildren, layout, List.getD_cons_zero, List.getD_cons_succ, Option.map_some,
      ht.layout, hi.layout, hi.encloseAt_eq]

/-- A list related to another one that ends in `b` ends in something related to `b`. -/
theorem splitLast {α β : Type} {R : α → β → Prop} {as : List α} {bs : List β} {b : β}
    (h : List.Forall₂ R as (bs ++ [b])) :
    List.Forall₂ R (as.take bs.length) bs ∧ ∀ d, R (as.getD bs.length d) b := by
  refine ⟨List.forall₂_take_append as bs [b] h, ?_⟩
  intro d
  have last := List.forall₂_drop_append as bs [b] h
  cases hdrop : as.drop bs.length with
  | nil =>
    rw [hdrop] at last
    exact absurd last (by simp)
  | cons a rest =>
    rw [hdrop] at last
    obtain _ | ⟨hab, _⟩ := last
    have found : as[bs.length]? = some a := by
      rw [← Nat.add_zero bs.length, ← List.getElem?_drop, hdrop]
      rfl
    rw [List.getD_eq_getElem?_getD, found]
    exact hab

namespace Stmt

/-- A statement is written as before when its parts are replaced by ones that are written
alike. -/
theorem WrittenAlike.withParts {s : Stmt} {es : List Expr} {ss : List Stmt}
    (hes : List.Forall₂ Expr.WrittenAlike es (StmtPart.exprs s.children))
    (hss : List.Forall₂ WrittenAlike ss (StmtPart.stmts s.children)) :
    WrittenAlike (s.withParts es ss) s := by
  -- Each form takes its parts back out of the two lists.  The layouts then differ only in those of
  -- the parts, and in what the printer asks of a body: whether it is a block, or an `if`.
  cases s with
  | block i stmts =>
    rw [children, StmtPart.stmts_map_stmt] at hss
    refine ⟨?_, rfl, rfl⟩
    intro ind inHeader
    cases hss with
    | nil => rfl
    | cons hs hrest =>
      simp only [Stmt.withParts, Stmt.layout, layoutLines (.cons hs hrest)]
  | ifElse i cond yes no =>
    cases no with
    | none =>
      obtain _ | ⟨hc, _⟩ := hes
      obtain _ | ⟨hy, _⟩ := hss
      refine ⟨?_, rfl, rfl⟩
      intro ind inHeader
      simp only [Stmt.withParts, List.getD_cons_zero, Option.map_none, Stmt.layout, hc.layout,
        hy.layout, hy.ofBody, hy.beforeBody]
    | some no =>
      obtain _ | ⟨hc, _⟩ := hes
      obtain _ | ⟨hy, _ | ⟨hn, _⟩⟩ := hss
      refine ⟨?_, rfl, rfl⟩
      intro ind inHeader
      simp only [Stmt.withParts, List.getD_cons_zero, List.getD_cons_succ, Option.map_some,
        Stmt.layout, hc.layout, hy.layout, hy.ofBody, hy.beforeBody, hn.layout, hn.ofBody,
        hn.beforeBody, hy.isBlock, hn.isIf]
  | whileLoop | doLoop | synchronized =>
    obtain _ | ⟨hc, _⟩ := hes
    obtain _ | ⟨hb, _⟩ := hss
    refine ⟨?_, rfl, rfl⟩
    intro ind inHeader
    simp only [Stmt.withParts, List.getD_cons_zero, Stmt.layout, hc.layout, hb.layout,
      hb.ofBody, hb.beforeBody, hb.isBlock]
  | raise | expr =>
    obtain _ | ⟨hc, _⟩ := hes
    refine ⟨?_, rfl, rfl⟩
    intro ind inHeader
    simp only [Stmt.withParts, List.getD_cons_zero, Stmt.layout, hc.layout]
  | empty => exact .refl _
  | ret i value =>
    cases value with
    | none => exact .refl _
    | some value =>
      obtain _ | ⟨hc, _⟩ := hes
      refine ⟨?_, rfl, rfl⟩
      intro ind inHeader
      simp only [Stmt.withParts, List.getD_cons_zero, Option.map_some, Stmt.layout, hc.layout]
  | declare i decl =>
    rw [children, StmtPart.exprs_map_expr] at hes
    refine ⟨?_, rfl, rfl⟩
    intro ind inHeader
    rw [Stmt.withParts, Stmt.layout, Stmt.layout, VarDecl.layout_withChildren hes]
  | forEach i var iterable body =>
    obtain ⟨hVar, hIterable⟩ := splitLast (by simpa [children] using hes)
    obtain _ | ⟨hb, _⟩ : List.Forall₂ WrittenAlike ss [body] := by simpa [children] using hss
    have first : (var.withChildren es).layout none = var.layout none := by
      rw [← List.take_append_drop var.children.length es,
        VarDecl.withChildren_append (Nat.le_of_eq hVar.length_eq.symm)]
      exact VarDecl.layout_withChildren hVar
    have second := hIterable iterable
    refine ⟨?_, rfl, rfl⟩
    intro ind inHeader
    simp only [Stmt.withParts, List.getD_cons_zero, Stmt.layout, first, second.layout, hb.layout,
      hb.ofBody, hb.beforeBody]
  | forLoop i init cond update body =>
    have hes : List.Forall₂ Expr.WrittenAlike es (cond.toList ++ update) := by
      simpa [children] using hes
    obtain ⟨hInit, hBody⟩ := splitLast (by simpa [children] using hss)
    have hb := hBody body
    cases cond with
    | none =>
      refine ⟨?_, rfl, rfl⟩
      intro ind inHeader
      simp only [Stmt.withParts, Stmt.layout, layoutHeader hInit,
        Expr.WrittenAlike.layoutArgs hes, Expr.WrittenAlike.isEmpty_eq hes, hb.layout,
        hb.ofBody, hb.beforeBody]
      rfl
    | some cond =>
      obtain _ | ⟨hc, hUpdate⟩ := hes
      refine ⟨?_, rfl, rfl⟩
      intro ind inHeader
      simp only [Stmt.withParts, List.getD_cons_zero, List.tail_cons, Stmt.layout,
        layoutHeader hInit, hc.layout, Expr.WrittenAlike.layoutArgs hUpdate,
        Expr.WrittenAlike.isEmpty_eq hUpdate, hb.layout, hb.ofBody, hb.beforeBody]
      rfl

end Stmt

end JavaRefactor
