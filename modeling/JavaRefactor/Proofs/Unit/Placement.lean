import JavaRefactor.Proofs.Layout.Unit
import JavaRefactor.Proofs.Tree.Parts
import JavaRefactor.Unit.Placement

/-!
# Placing nodes where they are laid out

The spans of a layout are recorded in the order of the text and written back by a traversal
of the tree, one span to a node.  `SyntaxNode.place` is that traversal for nodes of all kinds:
a node takes the first span, its children take the following ones in turn
(`SyntaxNode.place_eq`).  Since the subnodes of a layout are those of the children in their
order, every node gets the span of its own text and no span is left over
(`SyntaxNode.place_laidAt`).  `LaidAt start l n` says where the layout `l` puts the node `n` and
everything inside it.
-/

namespace JavaRefactor

open Layout

/-! ### Threading spans through lists -/

/-- Steps through lists side by side go through one after the other. -/
theorem threadEach_append {α β σ : Type} (step : α → σ → β × σ) (as bs : List α) (s : σ) :
    threadEach step (as ++ bs) s
      = ((threadEach step as s).1 ++ (threadEach step bs (threadEach step as s).2).1,
        (threadEach step bs (threadEach step as s).2).2) := by
  induction as generalizing s with
  | nil => rfl
  | cons a as ih => simp only [List.cons_append, threadEach, ih]

/-- A step that wraps its result wraps every result. -/
theorem threadEach_wrap {α β γ δ σ : Type} {step : α → σ → β × σ} {step' : γ → σ → δ × σ}
    {f : α → γ} {g : β → δ} (h : ∀ a s, step' (f a) s = (g (step a s).1, (step a s).2))
    (as : List α) (s : σ) :
    threadEach step' (as.map f) s
      = ((threadEach step as s).1.map g, (threadEach step as s).2) := by
  induction as generalizing s with
  | nil => rfl
  | cons a as ih => simp only [List.map_cons, threadEach, h, ih]

/-- Placing declarations places their expressions one after the other. -/
theorem threadEach_decls (ds : List VarDecl) (spans : List Span) :
    (threadEach VarDecl.place ds spans).1.flatMap VarDecl.children
        = (threadEach Expr.place (ds.flatMap VarDecl.children) spans).1 ∧
      (threadEach VarDecl.place ds spans).2
        = (threadEach Expr.place (ds.flatMap VarDecl.children) spans).2 := by
  induction ds generalizing spans with
  | nil => exact ⟨rfl, rfl⟩
  | cons d ds ih =>
    obtain ⟨first, rest⟩ := ih (threadEach Expr.place d.children spans).2
    have own : (d.place spans).1.children = (threadEach Expr.place d.children spans).1 :=
      VarDecl.children_withChildren (length_threadEach Expr.place d.children spans)
    rw [List.flatMap_cons, threadEach_append]
    refine ⟨?_, rest⟩
    show (d.place spans).1.children ++ _ = _
    rw [own]
    exact congrArg (_ ++ ·) first

/-! ### Placing any node -/

/-- A part of a statement with spans from the front of a list, and the spans left over. -/
def StmtPart.place : StmtPart → List Span → StmtPart × List Span
  | expr e, spans => (expr (e.place spans).1, (e.place spans).2)
  | stmt s, spans => (stmt (s.place spans).1, (s.place spans).2)

/-- A statement is placed by its first span, and its parts by those that follow. -/
theorem Stmt.place_eq (s : Stmt) (spans : List Span) :
    s.place spans =
      ((s.withSpan (spans.headD .synthetic)).withParts
          (StmtPart.exprs (threadEach StmtPart.place s.children spans.tail).1)
          (StmtPart.stmts (threadEach StmtPart.place s.children spans.tail).1),
        (threadEach StmtPart.place s.children spans.tail).2) := by
  have h := threadEach_map StmtPart.place Subtype.val s.children.attach spans.tail
  rw [List.attach_map_subtype_val] at h
  rw [h, place]
  refine congrArg (fun step : { part // part ∈ s.children } → List Span → StmtPart × List Span =>
    ((s.withSpan (spans.headD .synthetic)).withParts
        (StmtPart.exprs (threadEach step s.children.attach spans.tail).1)
        (StmtPart.stmts (threadEach step s.children.attach spans.tail).1),
      (threadEach step s.children.attach spans.tail).2)) (funext fun part => funext fun spans => ?_)
  obtain ⟨part, hpart⟩ := part
  cases part <;> rfl

namespace SyntaxNode

/-- The node with spans from the front of a list, and the spans left over. -/
def place : SyntaxNode → List Span → SyntaxNode × List Span
  | expr e, spans => (expr (e.place spans).1, (e.place spans).2)
  | stmt s, spans => (stmt (s.place spans).1, (s.place spans).2)
  | method m, spans => (method (m.place spans).1, (m.place spans).2)
  | type t, spans => (type (t.place spans).1, (t.place spans).2)

/-- Placing the parts of a statement places the nodes that they are. -/
theorem threadEach_parts (parts : List StmtPart) (spans : List Span) :
    threadEach place (parts.map StmtPart.node) spans
      = ((threadEach StmtPart.place parts spans).1.map StmtPart.node,
        (threadEach StmtPart.place parts spans).2) := by
  refine threadEach_wrap ?_ parts spans
  intro part spans
  cases part <;> rfl

/-- Expressions are placed as expressions. -/
theorem threadEach_exprs (es : List Expr) (spans : List Span) :
    threadEach place (es.map expr) spans
      = ((threadEach Expr.place es spans).1.map expr, (threadEach Expr.place es spans).2) :=
  threadEach_wrap (fun _ _ => rfl) es spans

/-- Methods are placed as methods. -/
theorem threadEach_methods (ms : List MethodDecl) (spans : List Span) :
    threadEach place (ms.map method) spans
      = ((threadEach MethodDecl.place ms spans).1.map method,
        (threadEach MethodDecl.place ms spans).2) :=
  threadEach_wrap (fun _ _ => rfl) ms spans

/-- Placing a part keeps what kind of part it is. -/
theorem map_isExpr_threadEach (parts : List StmtPart) (spans : List Span) :
    (threadEach StmtPart.place parts spans).1.map StmtPart.isExpr
      = parts.map StmtPart.isExpr := by
  induction parts generalizing spans with
  | nil => rfl
  | cons part parts ih =>
    cases part with
    | expr e => exact congrArg (true :: ·) (ih _)
    | stmt s => exact congrArg (false :: ·) (ih _)

/-- A node takes the first span. -/
theorem span_place (n : SyntaxNode) (spans : List Span) :
    (n.place spans).1.span = spans.headD .synthetic := by
  cases n with
  | expr e =>
    rw [place, span, Expr.place_eq, Expr.span, Expr.info_withChildren]
    cases e <;> rfl
  | stmt s =>
    rw [place, span, Stmt.place_eq]
    cases s with
    | forLoop i init cond update body => cases cond <;> rfl
    | _ => rfl
  | method m => rfl
  | type t => rfl

/-- The children of a node take the spans that follow in turn, and leave the others. -/
theorem place_eq (n : SyntaxNode) (spans : List Span) :
    (n.place spans).1.children = (threadEach place n.children spans.tail).1 ∧
      (n.place spans).2 = (threadEach place n.children spans.tail).2 := by
  cases n with
  | expr e =>
    have length : (threadEach Expr.place e.children spans.tail).1.length
        = (e.withSpan (spans.headD .synthetic)).children.length := by
      rw [length_threadEach, Expr.withSpan, Expr.children_withInfo]
    rw [children, threadEach_exprs, place, Expr.place_eq, children,
      Expr.children_withChildren length]
    exact ⟨rfl, rfl⟩
  | stmt s =>
    have children_withSpan (sp : Span) : (s.withSpan sp).children = s.children := by
      cases s <;> rfl
    have kinds : (threadEach StmtPart.place s.children spans.tail).1.map StmtPart.isExpr
        = (s.withSpan (spans.headD .synthetic)).children.map StmtPart.isExpr := by
      rw [map_isExpr_threadEach, children_withSpan]
    rw [children, threadEach_parts, place, Stmt.place_eq, children,
      Stmt.children_withParts kinds]
    exact ⟨rfl, rfl⟩
  | method m =>
    obtain ⟨params, rest⟩ := threadEach_decls m.params (m.returnType.place spans.tail).2
    rw [children, threadEach_append, threadEach_exprs]
    simp only [threadEach]
    rw [← params, ← rest]
    exact ⟨rfl, rfl⟩
  | type t =>
    obtain ⟨fields, rest⟩ := threadEach_decls t.fields spans.tail
    rw [children, threadEach_append, threadEach_exprs, threadEach_methods]
    simp only
    rw [← fields, ← rest]
    exact ⟨rfl, rfl⟩

/-- A list related to an appended one is appended itself, if the first parts are equally
long. -/
theorem forall₂_append {α β : Type} {R : α → β → Prop} {as as' : List α} {bs bs' : List β}
    (h : List.Forall₂ R (as ++ as') (bs ++ bs')) (length : as.length = bs.length) :
    List.Forall₂ R as bs ∧ List.Forall₂ R as' bs' := by
  have first := List.forall₂_take_append _ bs bs' h
  have second := List.forall₂_drop_append _ bs bs' h
  rw [← length, List.take_left] at first
  rw [← length, List.drop_left] at second
  exact ⟨first, second⟩

/-- Nodes of expressions that are written alike are expressions that are. -/
theorem forall₂_exprs {as bs : List Expr}
    (h : List.Forall₂ WrittenAlike (as.map expr) (bs.map expr)) :
    List.Forall₂ Expr.WrittenAlike as bs := by
  rw [List.forall₂_map_left_iff, List.forall₂_map_right_iff] at h
  exact h.imp fun _ _ alike => by
    cases alike with
    | expr alike => exact alike

/-- Parts that are written alike are expressions that are and statements that are. -/
theorem forall₂_parts {ps qs : List StmtPart}
    (h : List.Forall₂ WrittenAlike (ps.map StmtPart.node) (qs.map StmtPart.node)) :
    List.Forall₂ Expr.WrittenAlike (StmtPart.exprs ps) (StmtPart.exprs qs) ∧
      List.Forall₂ Stmt.WrittenAlike (StmtPart.stmts ps) (StmtPart.stmts qs) := by
  rw [List.forall₂_map_left_iff, List.forall₂_map_right_iff] at h
  induction h with
  | nil => exact ⟨.nil, .nil⟩
  | @cons p q _ _ hpq _ ih =>
    cases p with
    | expr e =>
      cases q with
      | expr f =>
        obtain alike | _ := hpq
        exact ⟨.cons alike ih.1, ih.2⟩
      | stmt t => exact absurd hpq (by rintro ⟨⟩)
    | stmt s =>
      cases q with
      | expr f => exact absurd hpq (by rintro ⟨⟩)
      | stmt t =>
        obtain _ | alike := hpq
        exact ⟨ih.1, .cons alike ih.2⟩

/-- Placed declarations are written as before if their expressions are. -/
theorem map_layout_threadEach {ds : List VarDecl} {spans : List Span}
    (h : List.Forall₂ Expr.WrittenAlike
      ((threadEach VarDecl.place ds spans).1.flatMap VarDecl.children)
      (ds.flatMap VarDecl.children)) :
    (threadEach VarDecl.place ds spans).1.map (VarDecl.layout none)
      = ds.map (VarDecl.layout none) := by
  induction ds generalizing spans with
  | nil => rfl
  | cons d ds ih =>
    have own : (d.place spans).1.children = (threadEach Expr.place d.children spans).1 :=
      VarDecl.children_withChildren (length_threadEach Expr.place d.children spans)
    have same : (d.place spans).1.children.length = d.children.length := by
      rw [own, length_threadEach]
    obtain ⟨first, rest⟩ := forall₂_append h same
    have first : List.Forall₂ Expr.WrittenAlike (d.place spans).1.children d.children := first
    rw [own] at first
    exact List.cons_eq_cons.mpr ⟨VarDecl.layout_withChildren first, ih rest⟩

/-- Methods that are written alike are laid out alike. -/
theorem map_layout_methods {ms ks : List MethodDecl}
    (h : List.Forall₂ WrittenAlike (ms.map method) (ks.map method)) (ind : Indent) :
    ms.map (MethodDecl.layout ind) = ks.map (MethodDecl.layout ind) := by
  rw [List.forall₂_map_left_iff, List.forall₂_map_right_iff] at h
  induction h with
  | nil => rfl
  | cons hmk _ ih =>
    obtain _ | _ | hmk := hmk
    exact List.cons_eq_cons.mpr ⟨hmk ind, ih⟩

/-- A placed node is written as before if its children are. -/
theorem writtenAlike_place {n : SyntaxNode} {spans : List Span}
    (h : List.Forall₂ WrittenAlike (n.place spans).1.children n.children) :
    WrittenAlike (n.place spans).1 n := by
  rw [(place_eq n spans).1] at h
  cases n with
  | expr e =>
    rw [children, threadEach_exprs] at h
    rw [place, Expr.place_eq]
    refine .expr (.trans (.withChildren ?_) (.withInfo _ e))
    rw [Expr.withSpan, Expr.children_withInfo]
    exact forall₂_exprs h
  | stmt s =>
    rw [children, threadEach_parts] at h
    obtain ⟨hes, hss⟩ := forall₂_parts h
    -- recording a span leaves the parts alone
    have children_withSpan (sp : Span) : (s.withSpan sp).children = s.children := by
      cases s <;> rfl
    rw [place, Stmt.place_eq]
    refine .stmt (.trans (.withParts ?_ ?_) (.withSpan s _))
    · rw [children_withSpan]
      exact hes
    · rw [children_withSpan]
      exact hss
  | method m =>
    rw [← (place_eq (method m) spans).1] at h
    have length : ((threadEach VarDecl.place m.params
        (m.returnType.place spans.tail).2).1.flatMap VarDecl.children).length
          = (m.params.flatMap VarDecl.children).length := by
      rw [(threadEach_decls m.params _).1, length_threadEach]
    obtain ⟨hExprs, hBody⟩ := forall₂_append h (by
      rw [List.length_map, List.length_map]
      exact congrArg (· + 1) length)
    obtain _ | ⟨hType, hParams⟩ := forall₂_exprs hExprs
    obtain _ | ⟨hBody, _⟩ := hBody
    obtain _ | hBody := hBody
    exact .method (MethodDecl.layout_congr hType (map_layout_threadEach hParams) hBody)
  | type t =>
    rw [← (place_eq (type t) spans).1] at h
    have length : ((threadEach VarDecl.place t.fields spans.tail).1.flatMap
        VarDecl.children).length = (t.fields.flatMap VarDecl.children).length := by
      rw [(threadEach_decls t.fields _).1, length_threadEach]
    obtain ⟨hFields, hMethods⟩ := forall₂_append h (by
      rw [List.length_map, List.length_map]
      exact length)
    refine .type (TypeDecl.layout_congr (map_layout_threadEach (forall₂_exprs hFields)) ?_)
    exact fun ind => map_layout_methods hMethods ind

/-! ### Where a layout puts a node -/

/-- The layout `l`, which starts at the offset `start`, puts a node and everything inside it
where their text is. -/
inductive LaidAt : Nat → Layout → SyntaxNode → Prop where
  | node {start : Nat} {parts : List Layout} {n : SyntaxNode}
      (printed : n.LaidOutAs (.node parts))
      (span : n.span = .ofOffsets start (start + (textOf parts).utf8ByteSize))
      (count : (places start parts).length = n.children.length)
      (child : ∀ q ∈ (places start parts).zip n.children, LaidAt q.1.1 q.1.2 q.2) :
      LaidAt start (.node parts) n

/-- Placing some nodes with the spans recorded for their layouts puts each where it is laid
out, keeps how it is written, and uses the spans up. -/
theorem threadEach_laidAt {ps : List (Nat × Layout)} {ns : List SyntaxNode}
    (h : List.Forall₂ (fun p n => ∀ rest, LaidAt p.1 p.2 (n.place (nodeSpans p.1 p.2 ++ rest)).1 ∧
      WrittenAlike (n.place (nodeSpans p.1 p.2 ++ rest)).1 n ∧
      (n.place (nodeSpans p.1 p.2 ++ rest)).2 = rest) ps ns) (rest : List Span) :
    List.Forall₂ (fun p n => LaidAt p.1 p.2 n) ps
        (threadEach place ns (ps.flatMap (fun p => nodeSpans p.1 p.2) ++ rest)).1 ∧
      List.Forall₂ WrittenAlike
        (threadEach place ns (ps.flatMap (fun p => nodeSpans p.1 p.2) ++ rest)).1 ns ∧
      (threadEach place ns (ps.flatMap (fun p => nodeSpans p.1 p.2) ++ rest)).2 = rest := by
  induction h with
  | nil => exact ⟨.nil, .nil, rfl⟩
  | @cons p n ps ns hpn _ ih =>
    obtain ⟨laid, alike, left⟩ := hpn (ps.flatMap (fun p => nodeSpans p.1 p.2) ++ rest)
    obtain ⟨laidRest, alikeRest, leftRest⟩ := ih
    rw [List.flatMap_cons, List.append_assoc]
    simp only [threadEach]
    rw [left]
    exact ⟨.cons laid laidRest, .cons alike alikeRest, leftRest⟩

/-- Placing a node with the spans recorded for its layout puts it where it is laid out,
keeps how it is written, and uses up exactly these spans. -/
theorem place_laidAt (n : SyntaxNode) {l : Layout} (h : n.LaidOutAs l) (start : Nat)
    (rest : List Span) :
    LaidAt start l (n.place (nodeSpans start l ++ rest)).1 ∧
      WrittenAlike (n.place (nodeSpans start l ++ rest)).1 n ∧
      (n.place (nodeSpans start l ++ rest)).2 = rest := by
  induction n using SyntaxNode.induction generalizing l start rest with
  | step n ih =>
    obtain ⟨parts, rfl⟩ := exists_parts h
    have each : List.Forall₂ (fun p n => n.LaidOutAs p.2) (places start parts) n.children := by
      rw [← List.forall₂_map_left_iff (f := Prod.snd), map_snd_places]
      exact subnodes_parts h
    have placed : List.Forall₂ (fun p n => ∀ rest,
        LaidAt p.1 p.2 (n.place (nodeSpans p.1 p.2 ++ rest)).1 ∧
          WrittenAlike (n.place (nodeSpans p.1 p.2 ++ rest)).1 n ∧
          (n.place (nodeSpans p.1 p.2 ++ rest)).2 = rest) (places start parts) n.children := by
      obtain ⟨length, zipped⟩ := List.forall₂_iff_zip.mp each
      refine List.forall₂_iff_zip.mpr ⟨length, ?_⟩
      intro p c hpc rest
      exact ih c (List.of_mem_zip hpc).2 (zipped hpc) p.1 rest
    obtain ⟨laid, alike, left⟩ := threadEach_laidAt placed rest
    rw [← nodeSpansOf_eq] at laid alike left
    rw [nodeSpans, List.cons_append]
    set spans := Span.ofOffsets start (start + (textOf parts).utf8ByteSize)
      :: (nodeSpansOf start parts ++ rest) with hspans
    obtain ⟨children, leftover⟩ := place_eq n spans
    have tail : spans.tail = nodeSpansOf start parts ++ rest := rfl
    rw [tail] at children leftover
    rw [← children] at laid alike
    have same := writtenAlike_place alike
    refine ⟨.node (same.laidOutAs h) (span_place n spans) ?_ ?_, same, leftover.trans left⟩
    · exact laid.length_eq
    · exact fun q hq => (List.forall₂_iff_zip.mp laid).2 hq

end SyntaxNode

end JavaRefactor
