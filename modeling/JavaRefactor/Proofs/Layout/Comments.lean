import JavaRefactor.Proofs.Layout.StmtPieces
import JavaRefactor.Proofs.Layout.Unit
import JavaRefactor.Proofs.Layout.Chain
import JavaRefactor.Proofs.Unit.Spans

/-!
# The comments of a layout

`Layout.commentsOf` lists the comments of a layout.  Their spans are a chain through the text,
and each comment stands under its span (`Layout.chain_commentSpansOf`).

An expression has no comments.  The comments of a statement are those above it and those of
the statements inside it, except that a statement in the header of a loop comes without the
comments above it (`Stmt.commentsOf_layout`, `Stmt.inner`).  So the comments of a file are
those that its methods declare, in their order (`commentsOf_layoutUnit`).
-/

namespace JavaRefactor

namespace Layout

mutual

/-- The comments of a layout. -/
def comments : Layout → List String
  | text _ => []
  | node parts => commentsOf parts
  | comment s => [s]

/-- The comments of several layouts. -/
def commentsOf : List Layout → List String
  | [] => []
  | l :: ls => comments l ++ commentsOf ls

end

@[simp] theorem commentsOf_nil : commentsOf [] = [] := rfl

@[simp] theorem commentsOf_text (s : String) (ls : List Layout) :
    commentsOf (text s :: ls) = commentsOf ls := rfl

@[simp] theorem commentsOf_comment (s : String) (ls : List Layout) :
    commentsOf (comment s :: ls) = s :: commentsOf ls := rfl

@[simp] theorem commentsOf_node (parts ls : List Layout) :
    commentsOf (node parts :: ls) = commentsOf parts ++ commentsOf ls := rfl

/-- The comments of layouts side by side are those of both. -/
@[simp] theorem commentsOf_append (as bs : List Layout) :
    commentsOf (as ++ bs) = commentsOf as ++ commentsOf bs := by
  induction as with
  | nil => rfl
  | cons a as ih => rw [List.cons_append, commentsOf, commentsOf, ih, List.append_assoc]

/-- The comments of layouts for each of some things are those for each. -/
@[simp] theorem commentsOf_flatMap {α : Type} (f : α → List Layout) (as : List α) :
    commentsOf (as.flatMap f) = as.flatMap fun a => commentsOf (f a) := by
  induction as with
  | nil => rfl
  | cons a as ih => rw [List.flatMap_cons, List.flatMap_cons, commentsOf_append, ih]

/-- Separators hold no comments. -/
@[simp] theorem commentsOf_separated (separator : String) (groups : List (List Layout)) :
    commentsOf (separated separator groups) = groups.flatMap commentsOf := by
  induction groups with
  | nil => rfl
  | cons group groups ih =>
    cases groups with
    | nil => rw [separated, List.flatMap_cons, List.flatMap_nil, List.append_nil]
    | cons next groups =>
      have split : separated separator (group :: next :: groups)
          = group ++ text separator :: separated separator (next :: groups) := rfl
      rw [split, commentsOf_append, commentsOf_text, ih]
      rfl

/-- What encloses layouts holds no comments. -/
@[simp] theorem commentsOf_within (opening closing : String) (inner : List Layout) :
    commentsOf (within opening closing inner) = commentsOf inner := by
  rw [within, List.cons_append, commentsOf_text, commentsOf_append, commentsOf_text,
    commentsOf_nil, List.append_nil]

/-! ### Where comments stand -/

mutual

/-- The comments of a layout stand in its text one after the other, each under its span. -/
theorem chain_commentSpans {source : String} {start : Nat} :
    (l : Layout) → TextAt source start l.toText → source.utf8ByteSize < Span.maxOffset →
    SpanChain start (start + l.width) (commentSpans start l) ∧
      List.Forall₂ (fun k t => TextAt source k.start t ∧ k.stop = k.start + t.utf8ByteSize)
        (commentSpans start l) (comments l)
  | text s, _, _ => ⟨Nat.le_add_right _ _, .nil⟩
  | node parts, h, small => chain_commentSpansOf parts h small
  | comment s, h, small => by
    have stop := h.stop_le
    rw [toText] at stop
    have exact_ : Span.ofOffsets start (start + s.utf8ByteSize)
        = ⟨start, start + s.utf8ByteSize⟩ := by
      rw [Span.ofOffsets, Nat.min_eq_left (by omega), Nat.min_eq_left (by omega)]
    rw [commentSpans, comments, exact_]
    exact ⟨⟨Nat.le_refl _, Nat.le_add_right _ _, Nat.le_refl _⟩, .cons ⟨h, rfl⟩ .nil⟩

/-- The comments of several layouts stand in their text one after the other, each under its
span. -/
theorem chain_commentSpansOf {source : String} {start : Nat} :
    (ls : List Layout) → TextAt source start (textOf ls) →
    source.utf8ByteSize < Span.maxOffset →
    SpanChain start (start + (textOf ls).utf8ByteSize) (commentSpansOf start ls) ∧
      List.Forall₂ (fun k t => TextAt source k.start t ∧ k.stop = k.start + t.utf8ByteSize)
        (commentSpansOf start ls) (commentsOf ls)
  | [], _, _ => ⟨Nat.le_add_right _ _, .nil⟩
  | l :: ls, h, small => by
    rw [textOf] at h
    obtain ⟨first, rest⟩ := h.append
    obtain ⟨chain, texts⟩ := chain_commentSpans l first small
    obtain ⟨chains, more⟩ := chain_commentSpansOf ls rest small
    rw [commentSpansOf, commentsOf, textOf, String.utf8ByteSize_append, ← Nat.add_assoc]
    exact ⟨chain.append chains, List.rel_append texts more⟩

end

end Layout

open Layout

/-! ### Comments of expressions -/

/-- Pieces have no comments if what is written in their places has none. -/
theorem Piece.commentsOf_fill_eq_nil {σ α : Type} {write : σ → α → List Layout}
    {ps : List (Piece σ)} {as : List α} (h : ∀ q, ∀ a ∈ as, commentsOf (write q a) = []) :
    commentsOf (fill write ps as) = [] := by
  induction ps generalizing as with
  | nil => rw [fill_nil]; rfl
  | cons p ps ih =>
    cases p with
    | text s => exact ih h
    | slot q =>
      cases as with
      | nil => exact ih h
      | cons a as =>
        rw [fill_slot, commentsOf_append, h q a List.mem_cons_self, List.nil_append]
        exact ih fun q b hb => h q b (List.mem_cons_of_mem a hb)

/-- A place adds no comments to those of its expression. -/
theorem ExprPlace.commentsOf_layout (p : ExprPlace) (e : Expr) :
    commentsOf (p.layout none e) = commentsOf [e.layout none] := by
  have gap : commentsOf (p.gap e) = [] := by
    rw [ExprPlace.gap]
    cases p.operator with
    | none => rfl
    | some op =>
      show commentsOf (signGap op e) = []
      unfold signGap
      split
      · split <;> rfl
      · rfl
  rw [ExprPlace.layout, commentsOf_append, gap, List.nil_append, encloseAt]
  split
  · rw [commentsOf_text, commentsOf, commentsOf_text]
    rfl
  · rfl

/-- An expression has no comments. -/
@[simp] theorem Expr.comments_layout (e : Expr) : (e.layout none).comments = [] := by
  induction e using Expr.induction with
  | step e ih =>
    rw [layout_eq, captureOr_none, comments]
    refine Piece.commentsOf_fill_eq_nil ?_
    intro q c hc
    rw [ExprPlace.commentsOf_layout, commentsOf, ih c hc]
    rfl

/-- Expressions hold no comments. -/
@[simp] theorem Expr.commentsOf_layout_cons (e : Expr) (ls : List Layout) :
    commentsOf (e.layout none :: ls) = commentsOf ls := by
  rw [commentsOf, comments_layout, List.nil_append]

/-- Nor do arguments. -/
@[simp] theorem Expr.commentsOf_layoutArgs (es : List Expr) :
    (layoutArgs none es).flatMap commentsOf = [] := by
  rw [List.flatMap_eq_nil_iff, layoutArgs_eq]
  intro group hgroup
  obtain ⟨e, -, rfl⟩ := List.mem_map.mp hgroup
  rw [ExprPlace.commentsOf_layout, commentsOf_layout_cons]
  rfl

/-- Nor do declarations of variables. -/
@[simp] theorem VarDecl.commentsOf_layout (d : VarDecl) : commentsOf (d.layout none) = [] := by
  rw [layout_eq ()]
  refine Piece.commentsOf_fill_eq_nil ?_
  intro _ e _
  exact Expr.commentsOf_layout_cons e []

/-! ### Comments of statements -/

namespace Stmt

mutual

/-- The statements inside a statement, each before those inside it, without those that stand
in the header of a loop themselves. -/
def inner : Stmt → List Stmt
  | block _ stmts => innerOfEach stmts
  | ifElse _ _ yes no => yes :: inner yes ++ innerOfOption no
  | whileLoop _ _ body | doLoop _ body _ | forEach _ _ _ body | synchronized _ _ body =>
    body :: inner body
  | forLoop _ init _ _ body => innerOfHeader init ++ body :: inner body
  | ret .. | raise .. | expr .. | empty .. | declare .. => []

/-- Some statements and the statements inside them. -/
def innerOfEach : List Stmt → List Stmt
  | [] => []
  | s :: ss => s :: inner s ++ innerOfEach ss

/-- The statements inside the statements in the header of a loop. -/
def innerOfHeader : List Stmt → List Stmt
  | [] => []
  | s :: ss => inner s ++ innerOfHeader ss

/-- An optional statement and the statements inside it. -/
def innerOfOption : Option Stmt → List Stmt
  | none => []
  | some s => s :: inner s

end

/-- The comments above a statement as they are written. -/
def marked (s : Stmt) : List String := s.comments.map fun c => "// " ++ c

/-- The comments above a statement are written behind two slashes. -/
theorem commentsOf_layoutComments (ind : Indent) (cs : List String) :
    commentsOf (layoutComments ind cs) = cs.map fun c => "// " ++ c := by
  induction cs with
  | nil => rfl
  | cons c cs ih => exact congrArg (_ :: ·) ih

/-- What leads up to a statement are the comments above it. -/
theorem commentsOf_lead (ind : Indent) (s : Stmt) : commentsOf (s.lead ind) = s.marked := by
  rw [lead, marked]
  induction s.comments with
  | nil => rfl
  | cons c cs ih => exact congrArg (_ :: ·) ih

/-- A statement has the comments above it and those of its parts. -/
theorem commentsOf_captureOrPrint (i : StmtInfo) (ind : Indent) (inHeader : Bool)
    (parts : List Layout) : commentsOf (captureOrPrint none i ind inHeader parts)
      = (if inHeader then [] else i.comments.map fun c => "// " ++ c) ++ commentsOf parts := by
  rw [captureOrPrint_none, commentsOf_append, commentsOf_node, commentsOf_nil, List.append_nil]
  cases inHeader with
  | false => exact congrArg (· ++ _) (commentsOf_layoutComments ind i.comments)
  | true => rfl

/-- The end of a statement holds no comment. -/
@[simp] theorem commentsOf_terminator (inHeader : Bool) :
    commentsOf (terminator inHeader) = [] := by
  cases inHeader <;> rfl

mutual

/-- The comments of a statement are those above it, unless it stands in the header of a loop,
and those above the statements inside it. -/
theorem commentsOf_layout : (s : Stmt) → (ind : Indent) → (inHeader : Bool) →
    commentsOf (s.layout none ind inHeader)
      = (if inHeader then [] else s.marked) ++ s.inner.flatMap marked
  | block i [], ind, inHeader => by
    rw [layout, commentsOf_captureOrPrint]
    rfl
  | block i (s :: ss), ind, inHeader => by
    have lines := commentsOf_layoutLines (s :: ss) ind.deeper
    rw [layout, commentsOf_captureOrPrint]
    simp [lines, inner, marked, comments, info]
  | ifElse i cond yes none, ind, inHeader => by
    have hYes := commentsOf_layout yes (ind.ofBody yes) false
    rw [layout, commentsOf_captureOrPrint]
    simp [hYes, inner, innerOfOption, marked, comments, info]
  | ifElse i cond yes (some no), ind, inHeader => by
    have hYes := commentsOf_layout yes (ind.ofBody yes) false
    have hNo := commentsOf_layout no (if no.isIf then ind else ind.ofBody no) false
    rw [layout, commentsOf_captureOrPrint]
    simp [hYes, hNo, inner, innerOfOption, marked, comments, info]
  | whileLoop i cond body, ind, inHeader | synchronized i cond body, ind, inHeader
  | doLoop i body cond, ind, inHeader => by
    have hBody := commentsOf_layout body (ind.ofBody body) false
    rw [layout, commentsOf_captureOrPrint]
    simp [hBody, inner, marked, comments, info]
  | forLoop i init cond update body, ind, inHeader => by
    have hInit := commentsOf_layoutHeader init ind
    have hBody := commentsOf_layout body (ind.ofBody body) false
    -- expressions hold no comments
    have hUpdate : commentsOf (if update.isEmpty then []
        else .text " " :: separated ", " (Expr.layoutArgs none update)) = [] := by
      split
      · rfl
      · rw [commentsOf_text, commentsOf_separated, Expr.commentsOf_layoutArgs]
    cases cond with
    | none =>
      rw [layout, commentsOf_captureOrPrint]
      simp [hInit, hBody, hUpdate, inner, marked, comments, info, -List.isEmpty_iff]
    | some cond =>
      rw [layout, commentsOf_captureOrPrint]
      simp [hInit, hBody, hUpdate, inner, marked, comments, info, -List.isEmpty_iff]
  | forEach i var iterable body, ind, inHeader => by
    have hBody := commentsOf_layout body (ind.ofBody body) false
    rw [layout, commentsOf_captureOrPrint]
    simp [hBody, inner, marked, comments, info]
  | ret i none, ind, inHeader | ret i (some _), ind, inHeader | raise i _, ind, inHeader
  | expr i _, ind, inHeader | empty i, ind, inHeader | declare i _, ind, inHeader => by
    rw [layout, commentsOf_captureOrPrint]
    simp [inner, marked, comments, info]

/-- The lines of some statements hold the comments of the statements and of those inside them. -/
theorem commentsOf_layoutLines : (ss : List Stmt) → (ind : Indent) →
    commentsOf (layoutLines none ind ss) = (innerOfEach ss).flatMap marked
  | [], _ => rfl
  | s :: ss, ind => by
    simp [layoutLines, innerOfEach, commentsOf_layout s ind false, commentsOf_layoutLines ss ind]

/-- The header of a loop holds the comments inside its statements, and not those above them. -/
theorem commentsOf_layoutHeader : (ss : List Stmt) → (ind : Indent) →
    (layoutHeader none ind ss).flatMap commentsOf = (innerOfHeader ss).flatMap marked
  | [], _ => rfl
  | s :: ss, ind => by
    simp [layoutHeader, innerOfHeader, commentsOf_layout s ind true,
      commentsOf_layoutHeader ss ind]

end

/-- The comments of the node of a statement are those of the statements inside it. -/
theorem commentsOf_parts (ind : Indent) (inHeader : Bool) (s : Stmt) :
    commentsOf (s.parts ind inHeader) = s.inner.flatMap marked := by
  have whole := s.commentsOf_layout ind inHeader
  rw [layout_eq, commentsOf_append, commentsOf_node, commentsOf_nil, List.append_nil, above]
    at whole
  cases inHeader with
  | true => exact whole
  | false =>
    rw [if_neg Bool.false_ne_true, commentsOf_layoutComments] at whole
    exact List.append_cancel_left whole

end Stmt

/-! ### Comments of files -/

/-- The comments that a method body declares, as they are written and in their order. -/
def MethodDecl.marked (m : MethodDecl) : List String :=
  (m.body :: m.body.inner).flatMap Stmt.marked

/-- The comments that the methods of a class declare. -/
def TypeDecl.marked (t : TypeDecl) : List String := t.methods.flatMap MethodDecl.marked

/-- The layout of a method holds the comments of its body. -/
theorem MethodDecl.comments_layout (ind : Indent) (m : MethodDecl) :
    (m.layout ind).comments = m.marked := by
  have params : commentsOf (separated ", " (m.params.map (VarDecl.layout none))) = [] := by
    rw [commentsOf_separated, List.flatMap_map, List.flatMap_eq_nil_iff]
    exact fun d _ => d.commentsOf_layout
  have modifier : commentsOf (if m.isStatic then [.text "static "] else []) = [] := by
    split <;> rfl
  have generics : commentsOf (if m.typeParams.isEmpty then []
      else [.text ("<" ++ ", ".intercalate m.typeParams ++ "> ")]) = [] := by
    split <;> rfl
  rw [layout, comments]
  simp [params, modifier, generics, m.body.commentsOf_layout, marked, List.flatMap_cons,
    -List.isEmpty_iff]

/-- The methods of a class are written one after the other, each after some text. -/
theorem commentsOf_methods (ms : List MethodDecl) {lead : Nat → List Layout}
    (hlead : ∀ i, commentsOf (lead i) = []) :
    commentsOf (ms.mapIdx fun i m => lead i
      ++ [.text Indent.outermost.deeper.newline, m.layout Indent.outermost.deeper]).flatten
        = ms.flatMap MethodDecl.marked := by
  induction ms generalizing lead with
  | nil => rfl
  | cons m ms ih =>
    rw [List.mapIdx_cons, List.flatten_cons, commentsOf_append, ih (fun i => hlead (i + 1)),
      commentsOf_append, hlead, commentsOf_text, commentsOf, MethodDecl.comments_layout,
      commentsOf_nil, List.append_nil, List.flatMap_cons]
    rfl

/-- The layout of a class holds the comments of its methods. -/
theorem TypeDecl.comments_layout (t : TypeDecl) : t.layout.comments = t.marked := by
  have fields : commentsOf (t.fields.flatMap fun f =>
      .text Indent.outermost.deeper.newline :: .text "private " :: f.layout none ++ [.text ";"])
        = [] := by
    rw [commentsOf_flatMap, List.flatMap_eq_nil_iff]
    intro d _
    simp
  have blank (i : Nat) :
      commentsOf (if 0 < i ∨ !t.fields.isEmpty then [.text "\n"] else []) = [] := by
    split <;> rfl
  rw [layout, comments, commentsOf_append, commentsOf_append, commentsOf_append, fields,
    commentsOf_methods t.methods blank]
  exact List.append_nil _

/-- Package and imports hold no comments. -/
@[simp] theorem commentsOf_headerLayout (package : Option String) (imports : List Import) :
    commentsOf (headerLayout package imports) = [] := by
  have lines : commentsOf (imports.flatMap fun i => [i.layout, .text "\n"]) = [] := by
    rw [commentsOf_flatMap, List.flatMap_eq_nil_iff]
    exact fun i _ => rfl
  cases package with
  | none => rw [headerLayout, commentsOf_append, lines]; rfl
  | some name => rw [headerLayout, commentsOf_append, lines]; rfl

/-- The comments of a file are those that its methods declare. -/
theorem commentsOf_layoutUnit (package : Option String) (imports : List Import)
    (types : List TypeDecl) :
    commentsOf (layoutUnit package imports types) = types.flatMap TypeDecl.marked := by
  have classes : (types.map fun t => [t.layout, Layout.text "\n"]).flatMap commentsOf
      = types.flatMap TypeDecl.marked := by
    rw [List.flatMap_map]
    refine List.flatMap_congr ?_
    intro t _
    rw [commentsOf, commentsOf_text, commentsOf_nil, List.append_nil, t.comments_layout]
  have blank : commentsOf (if imports.isEmpty then [] else [.text "\n"]) = [] := by
    split <;> rfl
  have last : commentsOf (if package.isNone ∧ imports.isEmpty ∧ types.isEmpty then [.text "\n"]
      else []) = [] := by
    split <;> rfl
  rw [layoutUnit_eq, commentsOf_append, commentsOf_headerLayout, bodyLayout, commentsOf_append,
    commentsOf_append, blank, commentsOf_separated, classes, last]
  exact List.append_nil _

end JavaRefactor
