import JavaRefactor.Proofs.Layout.Places
import JavaRefactor.Tree.Rebuild
import Mathlib.Data.List.Forall2

/-!
# The shape of the layout of expressions

The layout of an expression is a node whose subnodes are the layouts of its children, in
their order (`Expr.subnodes_parts`).  Two expressions are written alike if they have the
same layout and every place treats them the same: they bind equally tightly and start with
the same sign.  Putting children that are written alike into an expression keeps how it is
written (`Expr.WrittenAlike.withChildren`).
-/

namespace JavaRefactor

open Layout

/-- Without a source, every node is printed from its parts. -/
@[simp] theorem captureOr_none (span : Span) (parts : List Layout) :
    captureOr none span parts = .node parts := by
  have nothing : sourceText? none span = none := by
    unfold sourceText?
    split <;> rfl
  rw [captureOr, nothing]

/-- An expression at a place is the only node there. -/
theorem subnodes_encloseAt (level : Nat) (e : Expr) {l : Layout} (h : l.isNode = true) :
    subnodes (encloseAt level e l) = [l] := by
  unfold encloseAt
  split
  · rw [subnodes_text, subnodes_cons_of_isNode h]
    rfl
  · rw [subnodes_cons_of_isNode h]
    rfl

/-- The space before an operand is no node. -/
@[simp] theorem subnodes_signGap (op : UnaryOperator) (e : Expr) :
    subnodes (signGap op e) = [] := by
  unfold signGap
  split
  · split <;> rfl
  · rfl

namespace Expr

/-- The layout of an expression is a node. -/
theorem exists_layout_eq (e : Expr) : ∃ parts, e.layout none = .node parts := by
  cases e with
  | newArray i element dims init =>
    cases element with
    | none => exact ⟨_, by rw [layout, captureOr_none]⟩
    | some element => exact ⟨_, by rw [layout, captureOr_none]⟩
  | _ => exact ⟨_, by rw [layout, captureOr_none]⟩

/-- The layout of an expression is one node. -/
theorem isNode_layout (e : Expr) : (e.layout none).isNode = true := by
  obtain ⟨parts, h⟩ := e.exists_layout_eq
  rw [h]
  rfl

/-- The nodes at the place of an expression. -/
@[simp] theorem subnodes_enclosed (level : Nat) (e : Expr) :
    subnodes (encloseAt level e (e.layout none)) = [e.layout none] :=
  subnodes_encloseAt level e e.isNode_layout

/-- An expression is the first of the nodes of layouts that start with it. -/
@[simp] theorem subnodes_layout_cons (e : Expr) (ls : List Layout) :
    subnodes (e.layout none :: ls) = e.layout none :: subnodes ls :=
  subnodes_cons_of_isNode e.isNode_layout ls

/-- Arguments have a node each. -/
@[simp] theorem subnodes_layoutArgs (es : List Expr) :
    (layoutArgs none es).flatMap subnodes = es.map (layout none) := by
  induction es with
  | nil => simp [layoutArgs]
  | cons e es ih => simp [layoutArgs, ih]

/-- Dimensions have a node each. -/
@[simp] theorem subnodes_layoutDims (es : List Expr) :
    subnodes (layoutDims none es) = es.map (layout none) := by
  induction es with
  | nil => simp [layoutDims]
  | cons e es ih => simp [layoutDims, ih]

/-- The elements of an array initializer have a node each. -/
@[simp] theorem subnodes_layoutInit (lead : String) (init : Option (List Expr)) :
    subnodes (layoutInit none lead init) = (init.getD []).map (layout none) := by
  cases init with
  | none => simp [layoutInit]
  | some es => simp [layoutInit]

/-- The subnodes of an expression are the layouts of its children. -/
theorem subnodes_parts {e : Expr} {parts : List Layout} (h : e.layout none = .node parts) :
    subnodes parts = e.children.map (layout none) := by
  cases e with
  | newArray i element dims init =>
    cases element with
    | none =>
      rw [layout, captureOr_none] at h
      rw [← Layout.node.inj h]
      simp [children]
    | some element =>
      rw [layout, captureOr_none] at h
      rw [← Layout.node.inj h]
      simp [children]
  | unary i op operand =>
    rw [layout, captureOr_none] at h
    rw [← Layout.node.inj h]
    split <;> simp [children]
  | _ =>
    rw [layout, captureOr_none] at h
    rw [← Layout.node.inj h]
    simp [children]

/-! ### Expressions that are written alike -/

/-- The sign that an operand starts with, as the operator before it sees it. -/
def leadingSign? : Expr → Option Char
  | unary _ op _ => op.sign?
  | _ => none

/-- A space stands between an operator with a sign and an operand that starts with it. -/
theorem signGap_eq_leadingSign (op : UnaryOperator) (e : Expr) :
    signGap op e
      = if op.sign?.isSome && op.sign? == e.leadingSign? then [Layout.text " "] else [] := by
  cases e with
  | unary i inner operand => rfl
  | _ =>
    show [] = if op.sign?.isSome && op.sign? == none then [Layout.text " "] else []
    cases op.sign? <;> rfl

/-- Two expressions have the same layout and look the same to the places around them. -/
structure WrittenAlike (a b : Expr) : Prop where
  layout : a.layout none = b.layout none
  precedence : a.precedence = b.precedence
  leadingSign : a.leadingSign? = b.leadingSign?

namespace WrittenAlike

variable {a b : Expr}

/-- An expression is written like itself. -/
theorem refl (e : Expr) : WrittenAlike e e := ⟨rfl, rfl, rfl⟩

/-- Expressions that are written like one that is written like a third one are written like that. -/
theorem trans {c : Expr} (h : WrittenAlike a b) (h' : WrittenAlike b c) : WrittenAlike a c :=
  ⟨h.layout.trans h'.layout, h.precedence.trans h'.precedence,
    h.leadingSign.trans h'.leadingSign⟩

/-- What a node carries is not written. -/
theorem withInfo (i : NodeInfo) (e : Expr) : WrittenAlike (e.withInfo i) e := by
  cases e with
  | newArray j element dims init =>
    refine ⟨?_, rfl, rfl⟩
    cases element with
    | none => rw [Expr.withInfo, Expr.layout, Expr.layout, captureOr_none, captureOr_none]
    | some element => rw [Expr.withInfo, Expr.layout, Expr.layout, captureOr_none, captureOr_none]
  | _ =>
    refine ⟨?_, rfl, rfl⟩
    rw [Expr.withInfo, Expr.layout, Expr.layout, captureOr_none, captureOr_none]

/-- Every place puts parentheses around both or around neither. -/
theorem encloseAt_eq (h : WrittenAlike a b) (level : Nat) (l : Layout) :
    encloseAt level a l = encloseAt level b l := by
  rw [encloseAt, encloseAt, h.precedence]

/-- The space after an operator depends on the sign that the operand starts with. -/
theorem signGap_eq (h : WrittenAlike a b) (op : UnaryOperator) : signGap op a = signGap op b := by
  rw [signGap_eq_leadingSign, signGap_eq_leadingSign, h.leadingSign]

variable {as bs : List Expr}

/-- Arguments that are written alike are laid out alike. -/
theorem layoutArgs (h : List.Forall₂ WrittenAlike as bs) :
    Expr.layoutArgs none as = Expr.layoutArgs none bs := by
  induction h with
  | nil => rfl
  | cons hab _ ih => rw [Expr.layoutArgs, Expr.layoutArgs, hab.encloseAt_eq, hab.layout, ih]

/-- Dimensions that are written alike are laid out alike. -/
theorem layoutDims (h : List.Forall₂ WrittenAlike as bs) :
    Expr.layoutDims none as = Expr.layoutDims none bs := by
  induction h with
  | nil => rfl
  | cons hab _ ih => rw [Expr.layoutDims, Expr.layoutDims, hab.layout, ih]

/-- Lists that are written alike are empty together. -/
theorem isEmpty_eq (h : List.Forall₂ WrittenAlike as bs) : as.isEmpty = bs.isEmpty := by
  cases h with
  | nil => rfl
  | cons _ _ => rfl

/-- Array initializers that are written alike are laid out alike. -/
theorem layoutInit {init init' : Option (List Expr)} (lead : String)
    (h : Option.Rel (List.Forall₂ WrittenAlike) init init') :
    Expr.layoutInit none lead init = Expr.layoutInit none lead init' := by
  cases h with
  | none => rfl
  | some h => rw [Expr.layoutInit, Expr.layoutInit, layoutArgs h]

/-- The dimensions and the initializer that an array creation is rebuilt with are alike if
the children are. -/
theorem newArrayParts {cs dims : List Expr} {init : Option (List Expr)}
    (h : List.Forall₂ WrittenAlike cs (dims ++ init.getD [])) :
    List.Forall₂ WrittenAlike (cs.take dims.length) dims ∧
      Option.Rel (List.Forall₂ WrittenAlike) (init.map fun _ => cs.drop dims.length) init := by
  have first := List.forall₂_take_append cs dims (init.getD []) h
  have second := List.forall₂_drop_append cs dims (init.getD []) h
  refine ⟨first, ?_⟩
  cases init with
  | none => exact .none
  | some es => exact .some second

/-- An expression is written as before when its children are replaced by ones that are
written alike. -/
theorem withChildren {cs : List Expr} {e : Expr} (h : List.Forall₂ WrittenAlike cs e.children) :
    WrittenAlike (e.withChildren cs) e := by
  cases e with
  | literal | ident | this | super | primitiveType => exact .refl _
  | select | unary | paren | arrayType =>
    obtain _ | ⟨hc, _⟩ := h
    refine ⟨?_, rfl, rfl⟩
    simp only [Expr.withChildren, List.getD_cons_zero, Expr.layout, captureOr_none,
      hc.encloseAt_eq, hc.layout, hc.signGap_eq]
  | binary | assign | compoundAssign | cast | instanceOf | index =>
    obtain _ | ⟨hc, _ | ⟨hd, _⟩⟩ := h
    refine ⟨?_, rfl, rfl⟩
    simp only [Expr.withChildren, List.getD_cons_zero, List.getD_cons_succ, Expr.layout,
      captureOr_none, hc.encloseAt_eq, hd.encloseAt_eq, hc.layout, hd.layout]
  | conditional =>
    obtain _ | ⟨hc, _ | ⟨hy, _ | ⟨hn, _⟩⟩⟩ := h
    refine ⟨?_, rfl, rfl⟩
    simp only [Expr.withChildren, List.getD_cons_zero, List.getD_cons_succ, Expr.layout,
      captureOr_none, hc.encloseAt_eq, hy.encloseAt_eq, hn.encloseAt_eq, hc.layout, hy.layout,
      hn.layout]
  | call | newObject | typeApply =>
    obtain _ | ⟨hc, hargs⟩ := h
    refine ⟨?_, rfl, rfl⟩
    simp only [Expr.withChildren, List.getD_cons_zero, List.tail_cons, Expr.layout,
      captureOr_none, hc.encloseAt_eq, hc.layout, layoutArgs hargs]
  | newArray i element dims init =>
    refine ⟨?_, ?_, ?_⟩
    · cases element with
      | none =>
        obtain ⟨hDims, hInit⟩ := @newArrayParts cs _ _ h
        simp only [Expr.withChildren, Expr.layout, captureOr_none, layoutDims hDims,
          layoutInit _ hInit]
      | some element =>
        obtain _ | ⟨hc, hrest⟩ := h
        obtain ⟨hDims, hInit⟩ := newArrayParts hrest
        simp only [Expr.withChildren, List.getD_cons_zero, List.tail_cons, Expr.layout,
          captureOr_none, hc.layout, layoutDims hDims, layoutInit _ hInit, isEmpty_eq hDims]
    · cases element <;> rfl
    · cases element <;> rfl

end WrittenAlike

end Expr

end JavaRefactor
