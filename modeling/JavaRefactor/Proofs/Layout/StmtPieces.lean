import JavaRefactor.Proofs.Layout.Pieces
import JavaRefactor.Proofs.Layout.Stmt
import JavaRefactor.Proofs.Tree.Parts

/-!
# The pieces of the layout of statements

As with expressions, the layout of a statement alternates between fixed text and its parts.
The text depends on the parts only through how they look from outside: whether a part is a
block, and whether it is conditional (`Stmt.pieces_withParts`).
-/

namespace JavaRefactor

open Layout

/-! ### Places for the parts of statements -/

/-- A place for a part of a statement: where a statement in it starts its lines, and whether
it stands in the header of a loop. -/
structure StmtPlace where
  indent : Indent
  inHeader : Bool := false

/-- What is written for a part of a statement in a place. -/
def StmtPlace.layout (p : StmtPlace) : StmtPart → List Layout
  | .expr e => [e.layout none]
  | .stmt s => s.layout none p.indent p.inHeader

/-- A place for a part of a statement writes one node. -/
theorem StmtPlace.length_subnodes_layout (p : StmtPlace) (part : StmtPart) :
    (subnodes (p.layout part)).length = 1 := by
  cases part with
  | expr e => rw [layout, Expr.subnodes_layout_cons]; rfl
  | stmt s =>
    obtain ⟨parts, h⟩ := s.exists_subnodes_layout p.indent p.inHeader
    rw [layout, h]
    rfl

namespace Piece

variable {σ α β : Type}

/-- Filling places with the images of parts is writing the images. -/
theorem fill_map (write : σ → β → List Layout) (f : α → β) (ps : List (Piece σ)) (as : List α) :
    fill write ps (as.map f) = fill (fun q a => write q (f a)) ps as := by
  induction ps generalizing as with
  | nil => rw [fill_nil, fill_nil]
  | cons p ps ih =>
    cases p with
    | text s => rw [fill_text, fill_text, ih]
    | slot q =>
      cases as with
      | nil => exact ih []
      | cons a as => rw [List.map_cons, fill_slot, fill_slot, ih]

end Piece

/-! ### Declarations -/

/-- The pieces of a declaration, whose expressions stand in places of one kind. -/
def VarDecl.pieces {σ : Type} (q : σ) (d : VarDecl) : List (Piece σ) :=
  (if d.isFinal then [.text "final "] else []) ++ [.slot q, .text " ", .text d.name]
    ++ if d.init.isSome then [.text " = ", .slot q] else []

namespace VarDecl

variable {σ : Type}

/-- A declaration has a place for each of its expressions. -/
@[simp] theorem length_slots (q : σ) (d : VarDecl) :
    (Piece.slots (d.pieces q)).length = d.children.length := by
  obtain ⟨name, type, init, symbol, isFinal⟩ := d
  cases isFinal <;> cases init <;> simp [pieces, children]

/-- A declaration is written as its pieces are filled with its expressions. -/
theorem layout_eq (q : σ) (d : VarDecl) :
    d.layout none = Piece.fill (fun _ e => [e.layout none]) (d.pieces q) d.children := by
  obtain ⟨name, type, init, symbol, isFinal⟩ := d
  cases isFinal <;> cases init <;> simp [layout, pieces, children]

/-- A declaration has the same pieces with other expressions. -/
@[simp] theorem pieces_withChildren (q : σ) (cs : List Expr) (d : VarDecl) :
    (d.withChildren cs).pieces q = d.pieces q := by
  rw [pieces, pieces, withChildren, Option.isSome_map]

/-- What stands around one expression of a declaration does not depend on the expression. -/
theorem withChildren_around {d : VarDecl} {es es' : List Expr} {e : Expr}
    (children : d.children = es ++ e :: es') :
    ∃ front back, (subnodes front).length = es.length ∧
      ∀ x, (d.withChildren (es ++ x :: es')).layout none = front ++ x.layout none :: back ∧
        (d.withChildren (es ++ x :: es')).children = es ++ x :: es' := by
  have inside : es.length < (Piece.slots (d.pieces ())).length := by
    rw [length_slots, children, List.length_append, List.length_cons]
    omega
  obtain ⟨back, split⟩ := Piece.fill_split (fun _ e => [Expr.layout none e])
    (List.getElem?_eq_getElem inside) es'
  have one (_ : Unit) (x : Expr) : (subnodes [x.layout none]).length = 1 := by
    rw [Expr.subnodes_layout_cons]
    rfl
  refine ⟨_, back, Piece.length_subnodes_fillBefore one (Nat.le_of_lt inside), ?_⟩
  intro x
  have own : (d.withChildren (es ++ x :: es')).children = es ++ x :: es' := by
    refine children_withChildren ?_
    rw [children, List.length_append, List.length_append]
    rfl
  refine ⟨?_, own⟩
  rw [layout_eq (), own, pieces_withChildren, split, List.append_assoc]
  rfl

end VarDecl

/-! ### Statements -/

namespace Stmt

/-- The pieces of the node of a statement. -/
def pieces (ind : Indent) (inHeader : Bool) : Stmt → List (Piece StmtPlace)
  | block _ stmts =>
    if stmts.isEmpty then [.text "\x7b\x7d"]
    else .text "\x7b"
      :: stmts.flatMap (fun _ => [.text ind.deeper.newline, .slot ⟨ind.deeper, false⟩])
      ++ [.text ind.newline, .text "\x7d"]
  | ifElse _ _ yes no =>
    [.text "if (", .slot ⟨ind, false⟩, .text ")", .text (ind.beforeBody yes),
        .slot ⟨ind.ofBody yes, false⟩]
      ++ match no with
        | none => []
        | some no =>
          [.text (if yes.isBlock then " else" else ind.newline ++ "else"),
            .text (if no.isIf then " " else ind.beforeBody no),
            .slot ⟨if no.isIf then ind else ind.ofBody no, false⟩]
  | whileLoop _ _ body =>
    [.text "while (", .slot ⟨ind, false⟩, .text ")", .text (ind.beforeBody body),
      .slot ⟨ind.ofBody body, false⟩]
  | doLoop _ body _ =>
    [.text "do", .text (ind.beforeBody body), .slot ⟨ind.ofBody body, false⟩,
      .text (if body.isBlock then " " else ind.newline), .text "while (", .slot ⟨ind, false⟩,
      .text ");"]
  | forLoop _ init cond update body =>
    [.text "for ("] ++ Piece.list ⟨ind, true⟩ init.length ++ [.text ";"]
      ++ (if cond.isSome then [.text " ", .slot ⟨ind, false⟩] else []) ++ [.text ";"]
      ++ (if update.isEmpty then [] else .text " " :: Piece.list ⟨ind, false⟩ update.length)
      ++ [.text ")", .text (ind.beforeBody body), .slot ⟨ind.ofBody body, false⟩]
  | forEach _ var _ body =>
    [.text "for ("] ++ var.pieces ⟨ind, false⟩
      ++ [.text " : ", .slot ⟨ind, false⟩, .text ")", .text (ind.beforeBody body),
        .slot ⟨ind.ofBody body, false⟩]
  | ret _ value =>
    [.text "return"] ++ (if value.isSome then [.text " ", .slot ⟨ind, false⟩] else [])
      ++ [.text ";"]
  | raise _ _ => [.text "throw ", .slot ⟨ind, false⟩, .text ";"]
  | synchronized _ _ body =>
    [.text "synchronized (", .slot ⟨ind, false⟩, .text ")", .text (ind.beforeBody body),
      .slot ⟨ind.ofBody body, false⟩]
  | expr _ _ => [.slot ⟨ind, false⟩] ++ if inHeader then [] else [.text ";"]
  | empty _ => [.text ";"]
  | declare _ decl => decl.pieces ⟨ind, false⟩ ++ if inHeader then [] else [.text ";"]

/-- The comments above a statement, which the header of a loop leaves out. -/
def above (ind : Indent) (inHeader : Bool) (s : Stmt) : List Layout :=
  if inHeader then [] else layoutComments ind s.comments

/-- The layout of the node of a statement. -/
def parts (ind : Indent) (inHeader : Bool) (s : Stmt) : List Layout :=
  Piece.fill StmtPlace.layout (s.pieces ind inHeader) s.children

/-- There are no nodes in what stands above a statement. -/
@[simp] theorem subnodes_above (ind : Indent) (inHeader : Bool) (s : Stmt) :
    subnodes (s.above ind inHeader) = [] := by
  rw [above]
  split
  · rfl
  · exact subnodes_layoutComments ind s.comments

/-- The statements of a block are written on lines of their own. -/
theorem fill_lines (ind : Indent) (ss : List Stmt) (ps : List (Piece StmtPlace)) :
    Piece.fill StmtPlace.layout
        (ss.flatMap (fun _ => [.text ind.newline, .slot ⟨ind, false⟩]) ++ ps)
        (ss.map StmtPart.stmt)
      = layoutLines none ind ss ++ Piece.fill StmtPlace.layout ps [] := by
  induction ss with
  | nil => rw [layoutLines]; rfl
  | cons s ss ih =>
    rw [List.flatMap_cons, List.map_cons, layoutLines, List.append_assoc]
    simp [ih, StmtPlace.layout]

/-- The statements in the header of a loop stand in places for it. -/
theorem layoutHeader_eq (ind : Indent) (ss : List Stmt) :
    layoutHeader none ind ss = (ss.map StmtPart.stmt).map (StmtPlace.layout ⟨ind, true⟩) := by
  induction ss with
  | nil => rfl
  | cons s ss ih => rw [layoutHeader, ih]; rfl

/-- The statements in the header of a loop are separated by commas. -/
theorem fill_header (ind : Indent) (ss : List Stmt) (ps : List (Piece StmtPlace))
    (bs : List StmtPart) :
    Piece.fill StmtPlace.layout (Piece.list ⟨ind, true⟩ ss.length ++ ps)
        (ss.map StmtPart.stmt ++ bs)
      = separated ", " (layoutHeader none ind ss) ++ Piece.fill StmtPlace.layout ps bs := by
  have whole := Piece.fill_list_append StmtPlace.layout ⟨ind, true⟩
    (ss.map StmtPart.stmt) ps bs
  rw [List.length_map] at whole
  rw [whole, layoutHeader_eq]

/-- The updates of a loop are separated by commas, after a space if there are any. -/
theorem fill_updates (ind : Indent) (es : List Expr) (ps : List (Piece StmtPlace))
    (bs : List StmtPart) :
    Piece.fill StmtPlace.layout
        ((if es.isEmpty then [] else .text " " :: Piece.list ⟨ind, false⟩ es.length) ++ ps)
        (es.map StmtPart.expr ++ bs)
      = (if es.isEmpty then [] else .text " " :: separated ", " (Expr.layoutArgs none es))
        ++ Piece.fill StmtPlace.layout ps bs := by
  have each : (es.map StmtPart.expr).map (StmtPlace.layout ⟨ind, false⟩)
      = es.map (ExprPlace.any.layout none) := by
    rw [List.map_map]
    refine List.map_congr_left ?_
    intro e _
    rw [ExprPlace.layout_any]
    rfl
  have whole := Piece.fill_list_append StmtPlace.layout ⟨ind, false⟩
    (es.map StmtPart.expr) ps bs
  rw [List.length_map, each, ← Expr.layoutArgs_eq] at whole
  cases es with
  | nil => rfl
  | cons e es => exact congrArg (.text " " :: ·) whole

/-- The expressions of a declaration stand in their places. -/
theorem fill_decl (ind : Indent) (d : VarDecl) (ps : List (Piece StmtPlace))
    (bs : List StmtPart) :
    Piece.fill StmtPlace.layout (d.pieces ⟨ind, false⟩ ++ ps) (d.children.map StmtPart.expr ++ bs)
      = d.layout none ++ Piece.fill StmtPlace.layout ps bs := by
  rw [Piece.fill_append (by rw [VarDecl.length_slots, List.length_map]), Piece.fill_map,
    VarDecl.layout_eq (⟨ind, false⟩ : StmtPlace)]
  rfl

/-- The layout of a statement: the comments above it, and then one node. -/
theorem layout_eq (ind : Indent) (inHeader : Bool) (s : Stmt) :
    s.layout none ind inHeader = s.above ind inHeader ++ [.node (s.parts ind inHeader)] := by
  -- the comments are the same for all forms, so it is enough to compare the parts of the node
  have filled {ps : List Layout} (h : ps = s.parts ind inHeader) :
      captureOrPrint none s.info ind inHeader ps
        = s.above ind inHeader ++ [.node (s.parts ind inHeader)] := by
    rw [captureOrPrint_none, h, above, comments]
  cases s with
  | block i stmts =>
    cases stmts with
    | nil => rw [layout]; exact filled rfl
    | cons t ts =>
      rw [layout]
      refine filled ?_
      have lines := fill_lines ind.deeper (t :: ts) [.text ind.newline, .text "\x7d"]
      simpa [parts, pieces, children] using lines.symm
  | ifElse i cond yes no =>
    cases no with
    | none => rw [layout]; exact filled (by simp [parts, pieces, children, StmtPlace.layout])
    | some no => rw [layout]; exact filled (by simp [parts, pieces, children, StmtPlace.layout])
  | ret i value =>
    cases value with
    | none => rw [layout]; exact filled rfl
    | some value => rw [layout]; exact filled rfl
  | forLoop i init cond update body =>
    have rest := fill_updates ind update
      [.text ")", .text (ind.beforeBody body), .slot ⟨ind.ofBody body, false⟩] [.stmt body]
    cases cond with
    | none =>
      rw [layout]
      exact filled (by simp [parts, pieces, children, fill_header, rest, StmtPlace.layout,
        -List.isEmpty_iff])
    | some cond =>
      rw [layout]
      exact filled (by simp [parts, pieces, children, fill_header, rest, StmtPlace.layout,
        -List.isEmpty_iff])
  | forEach i var iterable body =>
    rw [layout]
    exact filled (by simp [parts, pieces, children, StmtPlace.layout, fill_decl])
  | declare i decl =>
    rw [layout]
    refine filled ?_
    have whole := fill_decl ind decl (if inHeader then [] else [.text ";"]) []
    rw [List.append_nil] at whole
    rw [parts, pieces, children, whole]
    cases inHeader <;> rfl
  | expr i value =>
    rw [layout]
    refine filled ?_
    cases inHeader <;> rfl
  | _ => rw [layout]; exact filled (by simp [parts, pieces, children, StmtPlace.layout])

/-- The comments above a statement, each behind a line break. -/
def lead (ind : Indent) (s : Stmt) : List Layout :=
  s.comments.flatMap fun c => [.text ind.newline, .comment ("// " ++ c)]

/-- There are no nodes in the comments that lead up to a statement. -/
@[simp] theorem subnodes_lead (ind : Indent) (s : Stmt) : subnodes (s.lead ind) = [] := by
  rw [lead]
  induction s.comments with
  | nil => rfl
  | cons c cs ih => exact ih

/-- The lines of some statements start with the comments of the first one.  Its node follows
them on a line of its own. -/
theorem layoutLines_cons (ind : Indent) (s : Stmt) (ss : List Stmt) :
    layoutLines none ind (s :: ss)
      = s.lead ind ++ ([.text ind.newline, .node (s.parts ind false)]
        ++ layoutLines none ind ss) := by
  have turned (cs : List String) (ls : List Layout) :
      .text ind.newline :: (layoutComments ind cs ++ ls)
        = cs.flatMap (fun c => [.text ind.newline, .comment ("// " ++ c)])
          ++ .text ind.newline :: ls := by
    induction cs with
    | nil => rfl
    | cons c cs ih => exact congrArg (.text ind.newline :: .comment ("// " ++ c) :: ·) ih
  rw [layoutLines, layout_eq, above, if_neg Bool.false_ne_true, List.cons_append,
    List.append_assoc, turned, lead]
  rfl

/-- Of the lines of some statements, only the nodes of the statements are nodes. -/
theorem places_layoutLines_cons (ind : Indent) (s : Stmt) (ss : List Stmt) (start : Nat) :
    let before := start + (textOf (s.lead ind)).utf8ByteSize + ind.newline.utf8ByteSize
    places start (layoutLines none ind (s :: ss))
      = (before, .node (s.parts ind false))
        :: places (before + (Layout.node (s.parts ind false)).width)
          (layoutLines none ind ss) := by
  intro before
  have noPlaces : places start (s.lead ind) = [] := by
    rw [← List.map_eq_nil_iff (f := Prod.snd), map_snd_places, subnodes_lead]
  rw [layoutLines_cons, places_append, noPlaces]
  rfl

/-- Every part of a statement has a place of its own. -/
theorem length_slots (ind : Indent) (inHeader : Bool) (s : Stmt) :
    (Piece.slots (s.pieces ind inHeader)).length = s.children.length := by
  have lines (ss : List Stmt) : Piece.slots (ss.flatMap fun _ =>
      [.text ind.deeper.newline, .slot (⟨ind.deeper, false⟩ : StmtPlace)])
        = List.replicate ss.length ⟨ind.deeper, false⟩ := by
    induction ss with
    | nil => rfl
    | cons s ss ih => exact congrArg (_ :: ·) ih
  cases s with
  | block i stmts => cases stmts <;> simp [pieces, children, lines]
  | ifElse i cond yes no => cases no <;> simp [pieces, children]
  | forLoop i init cond update body => cases cond <;> cases update <;> simp [pieces, children]
  | ret i value => cases value <;> simp [pieces, children]
  | expr | declare => cases inHeader <;> simp [pieces, children]
  | _ => simp [pieces, children]

end Stmt

namespace StmtPlace

/-- What is written in a place before the node of a part. -/
def opening (p : StmtPlace) : StmtPart → List Layout
  | .expr _ => []
  | .stmt s => s.above p.indent p.inHeader

/-- The layout of the node of a part in a place. -/
def node (p : StmtPlace) : StmtPart → Layout
  | .expr e => e.layout none
  | .stmt s => .node (s.parts p.indent p.inHeader)

/-- What is written in a place is what opens it and then the node of the part. -/
theorem layout_eq (p : StmtPlace) (part : StmtPart) :
    p.layout part = p.opening part ++ [p.node part] := by
  cases part with
  | expr e => rfl
  | stmt s => exact s.layout_eq p.indent p.inHeader

/-- The node of a part is a node. -/
theorem isNode_node (p : StmtPlace) (part : StmtPart) : (p.node part).isNode = true := by
  cases part with
  | expr e => exact e.isNode_layout
  | stmt s => rfl

/-- There are no nodes in what opens a place. -/
@[simp] theorem subnodes_opening (p : StmtPlace) (part : StmtPart) :
    subnodes (p.opening part) = [] := by
  cases part with
  | expr e => rfl
  | stmt s => exact s.subnodes_above p.indent p.inHeader

end StmtPlace

/-! ### Rebuilt statements -/

namespace Stmt

/-- Two statements look the same to the statements around them. -/
structure LooksLike (s t : Stmt) : Prop where
  isBlock : s.isBlock = t.isBlock
  isIf : s.isIf = t.isIf

namespace LooksLike

variable {s t : Stmt}

/-- A statement looks like itself. -/
theorem refl (s : Stmt) : LooksLike s s := ⟨rfl, rfl⟩

/-- Statements that look like one that looks like a third one look like that. -/
theorem trans {u : Stmt} (h : LooksLike s t) (h' : LooksLike t u) : LooksLike s u :=
  ⟨h.isBlock.trans h'.isBlock, h.isIf.trans h'.isIf⟩

/-- Looking the same has no direction. -/
theorem symm (h : LooksLike s t) : LooksLike t s := ⟨h.isBlock.symm, h.isIf.symm⟩

/-- The bodies of statements are indented alike if the bodies look the same. -/
theorem ofBody (h : LooksLike s t) (ind : Indent) : ind.ofBody s = ind.ofBody t := by
  rw [Indent.ofBody, Indent.ofBody, h.isBlock]

/-- What stands before a body depends only on how the body looks. -/
theorem beforeBody (h : LooksLike s t) (ind : Indent) : ind.beforeBody s = ind.beforeBody t := by
  rw [Indent.beforeBody, Indent.beforeBody, h.isBlock]

end LooksLike

/-- A rebuilt statement looks as before. -/
theorem looksLike_withParts (es : List Expr) (ss : List Stmt) (s : Stmt) :
    LooksLike (s.withParts es ss) s := by
  cases s with
  | forLoop i init cond update body => cases cond <;> exact ⟨rfl, rfl⟩
  | _ => exact ⟨rfl, rfl⟩

/-- A statement keeps what it carries when it gets other parts. -/
theorem info_withParts (es : List Expr) (ss : List Stmt) (s : Stmt) :
    (s.withParts es ss).info = s.info := by
  cases s with
  | forLoop i init cond update body => cases cond <;> rfl
  | _ => rfl

/-- The pieces of a statement do not depend on its expressions, and on the statements in it
only as far as they look from outside. -/
theorem pieces_withParts {s : Stmt} {es : List Expr} {ss : List Stmt}
    (hes : es.length = (StmtPart.exprs s.children).length)
    (hss : List.Forall₂ LooksLike ss (StmtPart.stmts s.children)) (ind : Indent)
    (inHeader : Bool) : (s.withParts es ss).pieces ind inHeader = s.pieces ind inHeader := by
  -- Of the expressions only the number counts, and of a body whether it is a block or an `if`.
  cases s with
  | block i stmts =>
    have length : ss.length = stmts.length := by simpa [children] using hss.length_eq
    simp only [withParts, pieces, flatMap_const_of_length length, isEmpty_of_length length]
  | ifElse i cond yes no =>
    cases no with
    | none =>
      obtain _ | ⟨hy, _⟩ := hss
      simp only [withParts, pieces, List.getD_cons_zero, Option.map_none, hy.beforeBody, hy.ofBody]
    | some no =>
      obtain _ | ⟨hy, _ | ⟨hn, _⟩⟩ := hss
      simp only [withParts, pieces, List.getD_cons_zero, List.getD_cons_succ, Option.map_some,
        hy.beforeBody, hy.ofBody, hy.isBlock, hn.isIf, hn.beforeBody, hn.ofBody]
  | whileLoop | doLoop | synchronized =>
    obtain _ | ⟨hb, _⟩ := hss
    simp only [withParts, pieces, List.getD_cons_zero, hb.beforeBody, hb.ofBody, hb.isBlock]
  | forEach i var iterable body =>
    obtain _ | ⟨hb, _⟩ : List.Forall₂ LooksLike ss [body] := by simpa [children] using hss
    simp only [withParts, pieces, List.getD_cons_zero, hb.beforeBody, hb.ofBody,
      VarDecl.pieces_withChildren]
  | declare i decl => simp only [withParts, pieces, VarDecl.pieces_withChildren]
  | ret i value => simp only [withParts, pieces, Option.isSome_map]
  | raise | expr | empty => rfl
  | forLoop i init cond update body =>
    obtain ⟨hInit, hBody⟩ := splitLast (by simpa [children] using hss)
    have hb := hBody body
    have hes : es.length = (cond.toList ++ update).length := by simpa [children] using hes
    cases cond with
    | none =>
      have length : es.length = update.length := hes
      simp only [withParts, pieces, hInit.length_eq, isEmpty_of_length length, length,
        hb.beforeBody,
        hb.ofBody]
    | some cond =>
      have length : es.tail.length = update.length := by
        rw [List.length_tail, hes]
        rfl
      simp only [withParts, pieces, hInit.length_eq, isEmpty_of_length length, length,
        hb.beforeBody,
        hb.ofBody, Option.isSome_some]

/-- The statement with other parts of the kinds of its own. -/
def rebuilt (s : Stmt) (parts : List StmtPart) : Stmt :=
  s.withParts (StmtPart.exprs parts) (StmtPart.stmts parts)

end Stmt

/-- Two parts of a statement are of one kind and look the same from outside. -/
inductive StmtPart.LooksLike : StmtPart → StmtPart → Prop where
  | expr (a b : Expr) : LooksLike (.expr a) (.expr b)
  | stmt {s t : Stmt} (h : Stmt.LooksLike s t) : LooksLike (.stmt s) (.stmt t)

/-- A part looks like itself. -/
theorem StmtPart.LooksLike.refl (part : StmtPart) : LooksLike part part := by
  cases part with
  | expr e => exact .expr e e
  | stmt s => exact .stmt (.refl s)

namespace Stmt

/-- Parts that look the same are expressions at the same places and statements that look the same.
-/
theorem looksLike_parts {ps qs : List StmtPart} (h : List.Forall₂ StmtPart.LooksLike ps qs) :
    ps.map StmtPart.isExpr = qs.map StmtPart.isExpr ∧
      (StmtPart.exprs ps).length = (StmtPart.exprs qs).length ∧
      List.Forall₂ LooksLike (StmtPart.stmts ps) (StmtPart.stmts qs) := by
  induction h with
  | nil => exact ⟨rfl, rfl, .nil⟩
  | cons first _ ih =>
    obtain ⟨kinds, exprs, stmts⟩ := ih
    cases first with
    | expr a b => exact ⟨congrArg (true :: ·) kinds, congrArg (· + 1) exprs, stmts⟩
    | stmt h => exact ⟨congrArg (false :: ·) kinds, exprs, .cons h stmts⟩

/-- What stands around one part of a statement does not depend on the part, as long as it
looks the same from outside. -/
theorem rebuilt_around {s : Stmt} {before after : List StmtPart} {part : StmtPart}
    (children : s.children = before ++ part :: after) (ind : Indent) (inHeader : Bool) :
    ∃ q front back, (subnodes front).length = before.length ∧
      ∀ part', part'.LooksLike part →
        (s.rebuilt (before ++ part' :: after)).above ind inHeader = s.above ind inHeader ∧
        (s.rebuilt (before ++ part' :: after)).parts ind inHeader
          = front ++ StmtPlace.layout q part' ++ back ∧
        (s.rebuilt (before ++ part' :: after)).children = before ++ part' :: after := by
  have inside : before.length < (Piece.slots (s.pieces ind inHeader)).length := by
    rw [length_slots, children, List.length_append, List.length_cons]
    omega
  obtain ⟨q, slot⟩ : ∃ q, (Piece.slots (s.pieces ind inHeader))[before.length]? = some q :=
    ⟨_, List.getElem?_eq_getElem inside⟩
  obtain ⟨back, split⟩ := Piece.fill_split StmtPlace.layout slot after
  refine ⟨q, _, back, Piece.length_subnodes_fillBefore StmtPlace.length_subnodes_layout
    (Nat.le_of_lt inside), ?_⟩
  intro part' looks
  have alike : List.Forall₂ StmtPart.LooksLike (before ++ part' :: after) s.children := by
    rw [children]
    exact List.rel_append (List.forall₂_same.mpr fun p _ => .refl p)
      (.cons looks (List.forall₂_same.mpr fun p _ => .refl p))
  obtain ⟨kinds, exprs, stmts⟩ := looksLike_parts alike
  have rebuilt : (s.rebuilt (before ++ part' :: after)).children = before ++ part' :: after :=
    children_withParts kinds
  refine ⟨?_, ?_, rebuilt⟩
  · rw [above, above, comments, Stmt.rebuilt, info_withParts, comments]
  · rw [parts, rebuilt, Stmt.rebuilt, pieces_withParts exprs stmts]
    exact split part'

end Stmt

end JavaRefactor
