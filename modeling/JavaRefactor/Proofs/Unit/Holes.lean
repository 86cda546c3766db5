import JavaRefactor.Proofs.Layout.StmtPieces
import JavaRefactor.Proofs.Unit.Spans

/-!
# Replacing one expression of a unit

A hole of a tree is a tree as a function of one expression inside it.  Holes of expressions,
statements, classes and lists of classes are given by how they are built up
(`ExprHole`, `StmtHole`, `TypeHole`, `UnitHole`); each comes with the place in which the
expression stands.  Whatever expression is put into a hole, the text around its place stays the
same, and where the whole is laid out, the expression is laid out after the text in front of it
(`WrittenAround`).
-/

namespace JavaRefactor

open Layout

/-! ### Trees with a hole -/

/-- An expression in a place `p` with a hole in the place `q`. -/
inductive ExprHole : ExprPlace → ExprPlace → (Expr → Expr) → Prop where
  | here (p : ExprPlace) : ExprHole p p fun x => x
  | inside {p place q : ExprPlace} {C : Expr → Expr} (e : Expr) {before after : List Expr}
      {c : Expr} (children : e.children = before ++ c :: after)
      (slot : (Piece.slots e.pieces)[before.length]? = some place)
      (inner : ExprHole place q C) :
      ExprHole p q fun x => e.withChildren (before ++ C x :: after)

/-- A statement with a hole in the place `q`. -/
inductive StmtHole : ExprPlace → (Expr → Stmt) → Prop where
  | expr {q : ExprPlace} {C : Expr → Expr} (s : Stmt) {before after : List StmtPart} {e : Expr}
      (children : s.children = before ++ .expr e :: after) (inner : ExprHole .any q C) :
      StmtHole q fun x => s.rebuilt (before ++ .expr (C x) :: after)
  | stmt {q : ExprPlace} {C : Expr → Stmt} (s : Stmt) {before after : List StmtPart} {e : Expr}
      (children : s.children = before ++ .stmt (C e) :: after) (inner : StmtHole q C) :
      StmtHole q fun x => s.rebuilt (before ++ .stmt (C x) :: after)

/-- A class with a hole in a field or in the body of a method. -/
inductive TypeHole : ExprPlace → (Expr → TypeDecl) → Prop where
  | field {q : ExprPlace} {C : Expr → Expr} (t : TypeDecl) {before after : List VarDecl}
      {d : VarDecl} {es es' : List Expr} {e : Expr} (fields : t.fields = before ++ d :: after)
      (children : d.children = es ++ e :: es') (inner : ExprHole .any q C) :
      TypeHole q fun x =>
        { t with fields := before ++ d.withChildren (es ++ C x :: es') :: after }
  | body {q : ExprPlace} {C : Expr → Stmt} (t : TypeDecl) {before after : List MethodDecl}
      {m : MethodDecl} (methods : t.methods = before ++ m :: after) (inner : StmtHole q C) :
      TypeHole q fun x => { t with methods := before ++ { m with body := C x } :: after }

/-- The classes of a unit with a hole. -/
inductive UnitHole : ExprPlace → (Expr → List TypeDecl) → Prop where
  | type {q : ExprPlace} {C : Expr → TypeDecl} (before after : List TypeDecl)
      (inner : TypeHole q C) : UnitHole q fun x => before ++ C x :: after

/-! ### What stands around a hole -/

namespace SyntaxNode

/-- A child of a laid-out node is laid out where the layout of the node has its layout. -/
theorem LaidAt.at_split {start : Nat} {front back : List Layout} {l : Layout} {n c : SyntaxNode}
    {before after : List SyntaxNode} (h : LaidAt start (.node (front ++ l :: back)) n)
    (isNode : l.isNode = true) (children : n.children = before ++ c :: after)
    (count : (subnodes front).length = before.length ∨ (subnodes back).length = after.length) :
    LaidAt (start + (textOf front).utf8ByteSize) l c := by
  obtain ⟨-, -, total, child⟩ := h
  have split : places start (front ++ l :: back)
      = places start front ++ (start + (textOf front).utf8ByteSize, l)
        :: places (start + (textOf front).utf8ByteSize + l.width) back := by
    rw [places_append, places, if_pos isNode]
    rfl
  have length (start : Nat) (ls : List Layout) :
      (places start ls).length = (subnodes ls).length := by
    rw [← map_snd_places start, List.length_map]
  have aligned : (places start front).length = before.length := by
    rw [split, children, List.length_append, List.length_append, List.length_cons,
      List.length_cons, length, length] at total
    rw [length]
    omega
  refine child ((start + (textOf front).utf8ByteSize, l), c) ?_
  rw [split, children, List.zip_append aligned]
  exact List.mem_append_right _ List.mem_cons_self

end SyntaxNode

open SyntaxNode (LaidAt)

/-- A text that contains an expression in a place: what stands before and after the place, and
where the expression is laid out if the whole is laid out at some offset. -/
structure WrittenAround (q : ExprPlace) (text : Expr → String) (laid : Nat → Expr → Prop)
    (front back : String) : Prop where
  text : ∀ x, text x = front ++ textOf (q.layout none x) ++ back
  laid : ∀ start x, laid start x →
    LaidAt (start + (front ++ textOf (q.opening x)).utf8ByteSize) (x.layout none) (.expr x)

/-- More text around a text. -/
theorem WrittenAround.within {q : ExprPlace} {text text' : Expr → String}
    {laid laid' : Nat → Expr → Prop} {front back : String}
    (h : WrittenAround q text laid front back) {pre post : String}
    (htext : ∀ x, text' x = pre ++ text x ++ post)
    (hlaid : ∀ start x, laid' start x → laid (start + pre.utf8ByteSize) x) :
    WrittenAround q text' laid' (pre ++ front) (back ++ post) := by
  constructor
  · intro x
    rw [htext, h.text]
    simp only [String.append_assoc]
  · intro start x hx
    have inner := h.laid _ x (hlaid start x hx)
    rw [Nat.add_assoc, ← String.utf8ByteSize_append, ← String.append_assoc] at inner
    exact inner

/-- A place after an operator holds what binds as tightly as the operator, and what stands
before the place ends in the operator. -/
def EndsInOperator (q : ExprPlace) (front : String) : Prop :=
  ∀ op, q.operator = some op → q.level = op.precedence ∧ op.followsOperand = false ∧
    ∃ before, front = before ++ op.token

/-- What ends in an operator does so behind any text. -/
theorem EndsInOperator.within {q : ExprPlace} {front : String} (h : EndsInOperator q front)
    (pre : String) : EndsInOperator q (pre ++ front) := by
  intro op hop
  obtain ⟨level, follows, before, rfl⟩ := h op hop
  exact ⟨level, follows, pre ++ before, (String.append_assoc ..).symm⟩

/-- What stands around a hole of an expression. -/
theorem ExprHole.around {p q : ExprPlace} {C : Expr → Expr} (h : ExprHole p q C) :
    ∃ front back,
      WrittenAround q (fun x => textOf (p.layout none (C x)))
        (fun start x => LaidAt (start + (textOf (p.opening (C x))).utf8ByteSize)
          ((C x).layout none) (.expr (C x))) front back ∧
      (EndsInOperator q front ∨ p = q ∧ front = "") := by
  induction h with
  | here p =>
    refine ⟨"", "", ⟨?_, ?_⟩, .inr ⟨rfl, rfl⟩⟩
    · intro x
      rw [String.empty_append, String.append_empty]
    · intro start x hx
      rw [String.empty_append]
      exact hx
  | @inside p place q C e before after c children slot _ ih =>
    obtain ⟨front, back, around, sign⟩ := ih
    obtain ⟨left, right, count, token, parts⟩ := Expr.withChildren_around children slot
    -- the parentheses around the whole do not depend on what is in the hole
    have opening (x : Expr) : p.opening (e.withChildren (before ++ C x :: after)) = p.opening e :=
      ExprPlace.opening_congr (e.precedence_withChildren _) (e.leadingSign?_withChildren _) p
    have closing (x : Expr) : p.closing (e.withChildren (before ++ C x :: after)) = p.closing e :=
      ExprPlace.closing_congr (e.precedence_withChildren _) p
    have inside (x : Expr) :
        (SyntaxNode.expr (e.withChildren (before ++ C x :: after))).children
          = before.map .expr ++ .expr (C x) :: after.map .expr := by
      rw [SyntaxNode.children, (parts (C x)).2, List.map_append, List.map_cons]
    refine ⟨textOf (p.opening e ++ left) ++ front, back ++ textOf (right ++ p.closing e),
      around.within ?_ ?_, .inl ?_⟩
    · intro x
      show textOf (p.layout none (e.withChildren (before ++ C x :: after))) = _
      rw [ExprPlace.layout_eq, opening, closing, (parts (C x)).1]
      simp only [textOf_append, textOf, toText, String.append_assoc]
    · intro start x laid
      have laid : LaidAt (start + (textOf (p.opening e)).utf8ByteSize)
          (.node (left ++ place.opening (C x)
            ++ (C x).layout none :: (place.closing (C x) ++ right)))
          (.expr (e.withChildren (before ++ C x :: after))) := by
        rw [opening, (parts (C x)).1, ExprPlace.layout_eq] at laid
        simpa only [List.append_assoc, List.cons_append] using laid
      have found := laid.at_split (C x).isNode_layout (inside x) (.inl (by
        rw [subnodes_append, ExprPlace.subnodes_opening, List.append_nil, count, List.length_map]))
      simpa only [textOf_append, String.utf8ByteSize_append, Nat.add_assoc] using found
    · rcases sign with sign | ⟨rfl, rfl⟩
      · exact sign.within _
      · intro op hop
        obtain ⟨level, follows, last⟩ := token op hop
        refine ⟨level, follows, textOf (p.opening e), ?_⟩
        rw [textOf_append, last, String.append_empty]

/-- What a hole of a statement looks like from outside does not depend on the expression in
it. -/
theorem StmtHole.looksLike {q : ExprPlace} {C : Expr → Stmt} (h : StmtHole q C) (x y : Expr) :
    (C x).LooksLike (C y) := by
  cases h with
  | expr s => exact (s.looksLike_withParts _ _).trans (s.looksLike_withParts _ _).symm
  | stmt s => exact (s.looksLike_withParts _ _).trans (s.looksLike_withParts _ _).symm

/-- What stands around a hole of a part of a statement. -/
theorem Stmt.rebuilt_writtenAround {q : ExprPlace} {s : Stmt} {before after : List StmtPart}
    {part : StmtPart} (children : s.children = before ++ part :: after)
    {P : Expr → StmtPart} (looks : ∀ x, (P x).LooksLike part) (ind : Indent) (inHeader : Bool)
    (inner : ∀ place : StmtPlace, ∃ front back,
      WrittenAround q (fun x => textOf (place.layout (P x)))
        (fun start x => LaidAt (start + (textOf (place.opening (P x))).utf8ByteSize)
          (place.node (P x)) (P x).node) front back ∧
      EndsInOperator q front) :
    ∃ front back,
      WrittenAround q
        (fun x => textOf ((s.rebuilt (before ++ P x :: after)).layout none ind inHeader))
        (fun start x => LaidAt
          (start + (textOf ((s.rebuilt (before ++ P x :: after)).above ind inHeader)).utf8ByteSize)
          (.node ((s.rebuilt (before ++ P x :: after)).parts ind inHeader))
          (.stmt (s.rebuilt (before ++ P x :: after)))) front back ∧
      EndsInOperator q front := by
  obtain ⟨place, left, right, count, parts⟩ := Stmt.rebuilt_around children ind inHeader
  obtain ⟨front, back, around, sign⟩ := inner place
  refine ⟨textOf (s.above ind inHeader ++ left) ++ front, back ++ textOf right,
    around.within ?_ ?_, sign.within _⟩
  · intro x
    obtain ⟨above, own, -⟩ := parts (P x) (looks x)
    rw [Stmt.layout_eq, above, own]
    simp only [textOf_append, textOf, toText, String.append_assoc, String.append_empty]
  · intro start x laid
    obtain ⟨above, own, inside⟩ := parts (P x) (looks x)
    have inside : (SyntaxNode.stmt (s.rebuilt (before ++ P x :: after))).children
        = before.map StmtPart.node ++ (P x).node :: after.map StmtPart.node := by
      rw [SyntaxNode.children, inside, List.map_append, List.map_cons]
    have laid : LaidAt (start + (textOf (s.above ind inHeader)).utf8ByteSize)
        (.node (left ++ place.opening (P x) ++ place.node (P x) :: right))
        (.stmt (s.rebuilt (before ++ P x :: after))) := by
      rw [above, own, StmtPlace.layout_eq] at laid
      simpa only [List.append_assoc, List.cons_append, List.nil_append] using laid
    have found := laid.at_split (place.isNode_node (P x)) inside (.inl (by
      rw [subnodes_append, StmtPlace.subnodes_opening, List.append_nil, count, List.length_map]))
    simpa only [textOf_append, String.utf8ByteSize_append, Nat.add_assoc] using found

/-- A place that holds every expression writes nothing before it. -/
theorem ExprPlace.opening_any (e : Expr) : ExprPlace.any.opening e = [] :=
  if_neg (Nat.not_lt.mpr e.precedence_le_assignLevel)

/-- What stands around a hole of an expression in a place that holds every expression. -/
theorem ExprHole.around_any {q : ExprPlace} {C : Expr → Expr} (h : ExprHole .any q C) :
    ∃ front back,
      WrittenAround q (fun x => ((C x).layout none).toText)
        (fun start x => LaidAt start ((C x).layout none) (.expr (C x))) front back ∧
      EndsInOperator q front := by
  obtain ⟨front, back, around, sign⟩ := h.around
  refine ⟨front, back, ⟨?_, ?_⟩, ?_⟩
  · intro x
    have whole := around.text x
    rw [ExprPlace.layout_any, textOf, textOf, String.append_empty] at whole
    exact whole
  · intro start x laid
    refine around.laid start x ?_
    rw [ExprPlace.opening_any, textOf]
    exact laid
  · rcases sign with sign | ⟨rfl, rfl⟩
    · exact sign
    · exact fun op hop => absurd hop (by simp [ExprPlace.any])

/-- What stands around a hole of a statement. -/
theorem StmtHole.around {q : ExprPlace} {C : Expr → Stmt} (h : StmtHole q C) (ind : Indent)
    (inHeader : Bool) : ∃ front back,
      WrittenAround q (fun x => textOf ((C x).layout none ind inHeader))
        (fun start x => LaidAt (start + (textOf ((C x).above ind inHeader)).utf8ByteSize)
          (.node ((C x).parts ind inHeader)) (.stmt (C x))) front back ∧
      EndsInOperator q front := by
  induction h generalizing ind inHeader with
  | expr s children inner =>
    refine Stmt.rebuilt_writtenAround children (fun x => .expr _ _) ind inHeader ?_
    intro place
    obtain ⟨front, back, around, sign⟩ := inner.around_any
    refine ⟨front, back, ⟨?_, around.laid⟩, sign⟩
    intro x
    rw [← around.text x]
    exact String.append_empty
  | stmt s children inner ih =>
    refine Stmt.rebuilt_writtenAround children (fun x => .stmt (inner.looksLike x _)) ind inHeader
      ?_
    intro place
    exact ih place.indent place.inHeader

/-- What is written of a method before its body. -/
def MethodDecl.head (m : MethodDecl) : List Layout :=
  .text "public "
    :: (if m.isStatic then [.text "static "] else [])
    ++ (if m.typeParams.isEmpty then []
        else [.text ("<" ++ ", ".intercalate m.typeParams ++ "> ")])
    ++ [m.returnType.layout none, .text " ", .text m.name]
    ++ Layout.within "(" ") " (Layout.separated ", " (m.params.map (VarDecl.layout none)))

/-- A method is written with its body last. -/
theorem MethodDecl.layout_body (ind : Indent) (m : MethodDecl) (body : Stmt) :
    MethodDecl.layout ind { m with body }
      = .node (m.head ++ body.above ind false ++ [.node (body.parts ind false)]) := by
  rw [List.append_assoc, ← Stmt.layout_eq]
  rfl

/-- What stands around a hole in the body of a method. -/
theorem StmtHole.around_method {q : ExprPlace} {C : Expr → Stmt} (h : StmtHole q C)
    (m : MethodDecl) (ind : Indent) : ∃ front back,
      WrittenAround q (fun x => (MethodDecl.layout ind { m with body := C x }).toText)
        (fun start x => LaidAt start (MethodDecl.layout ind { m with body := C x })
          (.method { m with body := C x })) front back ∧
      EndsInOperator q front := by
  obtain ⟨front, back, around, sign⟩ := h.around ind false
  have children (x : Expr) : (SyntaxNode.method { m with body := C x }).children
      = (m.returnType :: m.params.flatMap VarDecl.children).map .expr ++ .stmt (C x) :: [] := rfl
  refine ⟨textOf m.head ++ front, back ++ "", around.within ?_ ?_, sign.within _⟩
  · intro x
    rw [MethodDecl.layout_body, Stmt.layout_eq]
    simp only [textOf_append, textOf, toText, String.append_assoc, String.append_empty]
  · intro start x laid
    rw [MethodDecl.layout_body] at laid
    have found := laid.at_split rfl (children x) (.inr rfl)
    simpa only [textOf_append, String.utf8ByteSize_append, Nat.add_assoc] using found

/-- What stands around one field of a class. -/
theorem TypeDecl.layout_field (t : TypeDecl) (before after : List VarDecl) :
    ∃ front back, (subnodes front).length = (before.flatMap VarDecl.children).length ∧
      ∀ d, TypeDecl.layout { t with fields := before ++ d :: after }
        = .node (front ++ d.layout none ++ (back ++ [Layout.text "\x7d"])) := by
  have count : (subnodes (before.flatMap fun f => Layout.text Indent.outermost.deeper.newline
      :: Layout.text "private " :: f.layout none ++ [Layout.text ";"])).length
        = (before.flatMap VarDecl.children).length := by
    rw [subnodes_fields, (LaidOutEach.decls before).length_eq, List.length_map]
  have some (d : VarDecl) : (before ++ d :: after).isEmpty = false :=
    List.isEmpty_eq_false_iff.mpr (by simp)
  refine ⟨[Layout.text "public class ", Layout.text t.name, Layout.text " \x7b"]
      ++ before.flatMap (fun f => Layout.text Indent.outermost.deeper.newline
        :: Layout.text "private " :: f.layout none ++ [Layout.text ";"])
      ++ [Layout.text Indent.outermost.deeper.newline, Layout.text "private "],
    [Layout.text ";"]
      ++ after.flatMap (fun f => Layout.text Indent.outermost.deeper.newline
        :: Layout.text "private " :: f.layout none ++ [Layout.text ";"])
      ++ (t.methods.mapIdx fun i m =>
        (if 0 < i ∨ !false then [Layout.text "\n"] else [])
          ++ [Layout.text Indent.outermost.deeper.newline,
            m.layout Indent.outermost.deeper]).flatten
      ++ [Layout.text Indent.outermost.newline], ?_, ?_⟩
  · rw [subnodes_append, subnodes_append, List.length_append, List.length_append, count]
    exact Nat.zero_add (before.flatMap VarDecl.children).length
  · intro d
    simp only [TypeDecl.layout, some, List.flatMap_append, List.flatMap_cons, List.append_assoc,
      List.cons_append, List.nil_append]

/-- What stands around one method of a class. -/
theorem TypeDecl.layout_method (t : TypeDecl) (before after : List MethodDecl) :
    ∃ front back, (subnodes back).length = after.length ∧
      ∀ m, TypeDecl.layout { t with methods := before ++ m :: after }
        = .node (front ++ m.layout Indent.outermost.deeper :: (back ++ [Layout.text "\x7d"])) := by
  refine ⟨[Layout.text "public class ", Layout.text t.name, Layout.text " \x7b"]
      ++ t.fields.flatMap (fun f => Layout.text Indent.outermost.deeper.newline
        :: Layout.text "private " :: f.layout none ++ [Layout.text ";"])
      ++ (before.mapIdx fun i m =>
        (if 0 < i ∨ !t.fields.isEmpty then [Layout.text "\n"] else [])
          ++ [Layout.text Indent.outermost.deeper.newline,
            m.layout Indent.outermost.deeper]).flatten
      ++ ((if 0 < before.length ∨ !t.fields.isEmpty then [Layout.text "\n"] else [])
        ++ [Layout.text Indent.outermost.deeper.newline]),
    (after.mapIdx fun i m =>
        (if 0 < i + 1 + before.length ∨ !t.fields.isEmpty then [Layout.text "\n"] else [])
          ++ [Layout.text Indent.outermost.deeper.newline,
            m.layout Indent.outermost.deeper]).flatten
      ++ [Layout.text Indent.outermost.newline], ?_, ?_⟩
  · have blank (i : Nat) : subnodes (if 0 < i + 1 + before.length ∨ !t.fields.isEmpty then
        [Layout.text "\n"] else []) = [] := by
      split <;> rfl
    rw [subnodes_append, subnodes_methods after blank, List.length_append, List.length_map]
    rfl
  · intro m
    simp only [TypeDecl.layout, List.mapIdx_append, List.mapIdx_cons, List.flatten_append,
      List.flatten_cons, List.append_assoc, List.cons_append, List.nil_append, Nat.zero_add]

/-- What stands around a hole of a class; after it there is at least the end of the class. -/
theorem TypeHole.around {q : ExprPlace} {C : Expr → TypeDecl} (h : TypeHole q C) :
    ∃ front back,
      WrittenAround q (fun x => (C x).layout.toText)
        (fun start x => LaidAt start (C x).layout (.type (C x))) front (back ++ "\x7d") ∧
      EndsInOperator q front := by
  cases h with
  | @field C t before after d es es' e fields children inner =>
    obtain ⟨front, back, around, sign⟩ := inner.around_any
    obtain ⟨left, right, count, whole⟩ := t.layout_field before after
    obtain ⟨left', right', count', parts⟩ := VarDecl.withChildren_around children
    -- what stands around the field in the class, and around the initializer in the field
    have layout (x : Expr) : TypeDecl.layout
        { t with fields := before ++ d.withChildren (es ++ C x :: es') :: after }
          = .node (left ++ left' ++
            (C x).layout none :: (right' ++ (right ++ [Layout.text "\x7d"]))) := by
      rw [whole, (parts (C x)).1]
      simp only [List.append_assoc, List.cons_append]
    have nodes (x : Expr) : (SyntaxNode.type
        { t with fields := before ++ d.withChildren (es ++ C x :: es') :: after }).children
          = (before.flatMap VarDecl.children ++ es).map .expr ++ .expr (C x)
            :: ((es' ++ after.flatMap VarDecl.children).map .expr ++ t.methods.map .method) := by
      rw [SyntaxNode.children, List.flatMap_append, List.flatMap_cons, (parts (C x)).2]
      simp only [List.map_append, List.map_cons, List.append_assoc, List.cons_append]
    refine ⟨textOf (left ++ left') ++ front, back ++ textOf (right' ++ right), ?_, sign.within _⟩
    rw [String.append_assoc]
    refine around.within ?_ ?_
    · intro x
      rw [layout]
      simp only [textOf_append, textOf, toText, String.append_assoc, String.append_empty]
    · intro start x laid
      rw [layout] at laid
      refine laid.at_split (C x).isNode_layout (nodes x) (.inl ?_)
      rw [subnodes_append, List.length_append, count, count', List.length_map, List.length_append]
  | @body C t before after m methods inner =>
    obtain ⟨front, back, around, sign⟩ := inner.around_method m Indent.outermost.deeper
    obtain ⟨left, right, count, whole⟩ := t.layout_method before after
    have children (x : Expr) :
        (SyntaxNode.type { t with methods := before ++ { m with body := C x } :: after }).children
          = ((t.fields.flatMap VarDecl.children).map .expr ++ before.map .method)
            ++ .method { m with body := C x } :: after.map .method := by
      rw [SyntaxNode.children, List.map_append, List.map_cons, List.append_assoc]
    refine ⟨textOf left ++ front, back ++ textOf right, ?_, sign.within _⟩
    rw [String.append_assoc]
    refine around.within ?_ ?_
    · intro x
      rw [whole]
      simp only [textOf_append, textOf, toText, String.append_assoc, String.append_empty]
    · intro start x laid
      rw [whole] at laid
      refine laid.at_split rfl (children x) (.inr ?_)
      rw [subnodes_append, List.length_append, count, List.length_map]
      rfl

/-- What stands around one of several groups with separators between them. -/
theorem separated_split (separator : String) (before after : List (List Layout))
    (group : List Layout) :
    separated separator (before ++ group :: after)
      = before.flatMap (· ++ [Layout.text separator]) ++ group
        ++ after.flatMap (Layout.text separator :: ·) := by
  have later (group : List Layout) (after : List (List Layout)) :
      separated separator (group :: after) =
        group ++ after.flatMap (Layout.text separator :: ·) := by
    induction after generalizing group with
    | nil => exact (List.append_nil group).symm
    | cons next after ih =>
      show group ++ Layout.text separator :: separated separator (next :: after) = _
      rw [ih, List.flatMap_cons]
      rfl
  induction before with
  | nil => exact later group after
  | cons first before ih =>
    have more : separated separator (first :: (before ++ group :: after))
        = first ++ Layout.text separator :: separated separator (before ++ group :: after) := by
      cases before <;> rfl
    rw [List.cons_append, more, ih, List.flatMap_cons]
    simp only [List.append_assoc, List.cons_append, List.nil_append]

/-- What stands around one class of a file. -/
theorem layoutUnit_split (package : Option String) (imports : List Import)
    (before after : List TypeDecl) :
    ∃ front back, (subnodes back).length = after.length ∧
      ∀ t, layoutUnit package imports (before ++ t :: after) = front ++ t.layout :: back := by
  obtain ⟨head, hhead⟩ : ∃ head, ∀ types : List TypeDecl, types.isEmpty = false →
      layoutUnit package imports types
        = head ++ separated "\n" (types.map fun t => [t.layout, .text "\n"]) :=
    ⟨_, fun types some => by
      have full : ¬ (package.isNone ∧ imports.isEmpty ∧ false = true) := fun h => by simp at h
      unfold layoutUnit
      rw [some, if_neg full, List.append_nil]⟩
  have count (ts : List TypeDecl) : (subnodes (.text "\n"
      :: (ts.map fun t => [t.layout, .text "\n"]).flatMap (.text "\n" :: ·))).length
        = ts.length := by
    induction ts with
    | nil => rfl
    | cons t ts ih =>
      rw [subnodes_text] at ih ⊢
      rw [List.map_cons, List.flatMap_cons, subnodes_append, List.length_append, ih,
        List.length_cons, Nat.add_comm]
      rfl
  refine ⟨head ++ (before.map fun t => [t.layout, .text "\n"]).flatMap (· ++ [.text "\n"]), _,
    count after, ?_⟩
  intro t
  rw [hhead _ (List.isEmpty_eq_false_iff.mpr (by simp)), List.map_append, List.map_cons,
    separated_split]
  simp only [List.append_assoc, List.cons_append, List.nil_append]

/-- A text with something in it is not empty. -/
theorem append_ne_empty {middle : String} (h : middle ≠ "") (front back : String) :
    front ++ middle ++ back ≠ "" := by
  intro empty
  have length := congrArg String.utf8ByteSize empty
  rw [String.utf8ByteSize_append, String.utf8ByteSize_append] at length
  refine h (String.utf8ByteSize_eq_zero_iff.mp ?_)
  have none : ("" : String).utf8ByteSize = 0 := rfl
  omega

/-- What stands around a hole of the classes of a unit. -/
theorem UnitHole.around {q : ExprPlace} {C : Expr → List TypeDecl} (h : UnitHole q C)
    (package : Option String) (imports : List Import) :
    ∃ front back, back ≠ "" ∧
      WrittenAround q (fun x => textOf (layoutUnit package imports (C x)))
        (fun start x => ∃ ps qs, places start (layoutUnit package imports (C x)) = ps ++ qs ∧
          List.Forall₂ (fun p t => LaidAt p.1 p.2 (.type t)) qs (C x)) front back ∧
      EndsInOperator q front := by
  obtain @⟨C, before, after, inner⟩ := h
  obtain ⟨front, back, around, sign⟩ := inner.around
  obtain ⟨left, right, count, whole⟩ := layoutUnit_split package imports before after
  refine ⟨textOf left ++ front, back ++ "\x7d" ++ textOf right, append_ne_empty (by decide) back _,
    around.within ?_ ?_, sign.within _⟩
  · intro x
    rw [whole]
    simp only [textOf_append, textOf, String.append_assoc]
  · intro start x laid
    obtain ⟨ps, qs, split, laid⟩ := laid
    have first := List.forall₂_drop_append qs before (C x :: after) laid
    cases hdrop : qs.drop before.length with
    | nil =>
      rw [hdrop] at first
      exact absurd first (by simp)
    | cons p later =>
      rw [hdrop] at first
      obtain _ | ⟨own, others⟩ := first
      have length : (places (start + (textOf left).utf8ByteSize + (C x).layout.width) right).length
          = later.length := by
        rw [others.length_eq, ← count, ← map_snd_places, List.length_map]
      rw [whole, places_append, places, if_pos (show (C x).layout.isNode = true from rfl),
        List.singleton_append, ← List.take_append_drop before.length qs, hdrop,
        ← List.append_assoc] at split
      have same := (List.append_inj' split (congrArg (· + 1) length)).2
      obtain ⟨rfl, -⟩ := List.cons_eq_cons.mp same
      exact own

end JavaRefactor
