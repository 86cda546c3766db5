import JavaRefactor.Proofs.Layout.Expr
import JavaRefactor.Rule.Place

/-!
# The pieces of the layout of expressions

The layout of an expression alternates between fixed text and its children, each written in a
place of its own.  `Expr.pieces` says which text and which places these are; they do not
depend on the children, only on their number (`Expr.pieces_withChildren`), and filling the
places with the children gives the layout (`Expr.layout_eq`).
-/

namespace JavaRefactor

open Layout

/-- Lists of one length are empty together. -/
theorem isEmpty_of_length {α β : Type} {as : List α} {bs : List β} (h : as.length = bs.length) :
    as.isEmpty = bs.isEmpty := by
  rw [Bool.eq_iff_iff, List.isEmpty_iff_length_eq_zero, List.isEmpty_iff_length_eq_zero, h]

/-- Repeating a list once for every element of another one depends on how many there are. -/
theorem flatMap_const_of_length {α β γ : Type} {as : List α} {bs : List β} {cs : List γ}
    (h : as.length = bs.length) : as.flatMap (fun _ => cs) = bs.flatMap fun _ => cs := by
  rw [List.flatMap_def, List.flatMap_def, List.map_const', List.map_const', h]

/-! ### Pieces of any kind -/

/-- A piece of the layout of a node: fixed text, or a place for a part. -/
inductive Piece (σ : Type) where
  | text (s : String)
  | slot (place : σ)

namespace Piece

variable {σ α : Type}

/-- The places among some pieces. -/
def slots : List (Piece σ) → List σ
  | [] => []
  | text _ :: ps => slots ps
  | slot q :: ps => q :: slots ps

/-- The layout that some pieces give when their places are filled. -/
def fill (write : σ → α → List Layout) : List (Piece σ) → List α → List Layout
  | [], _ => []
  | text s :: ps, as => .text s :: fill write ps as
  | slot q :: ps, a :: as => write q a ++ fill write ps as
  | slot _ :: ps, [] => fill write ps []

/-- The layout up to the first place that is not filled. -/
def fillBefore (write : σ → α → List Layout) : List (Piece σ) → List α → List Layout
  | [], _ => []
  | text s :: ps, as => .text s :: fillBefore write ps as
  | slot q :: ps, a :: as => write q a ++ fillBefore write ps as
  | slot _ :: _, [] => []

/-- Places separated by commas. -/
def list (q : σ) : Nat → List (Piece σ)
  | 0 => []
  | 1 => [slot q]
  | n + 2 => slot q :: text ", " :: list q (n + 1)

@[simp] theorem slots_nil : slots ([] : List (Piece σ)) = [] := rfl

@[simp] theorem slots_text (s : String) (ps : List (Piece σ)) : slots (text s :: ps) = slots ps :=
  rfl

@[simp] theorem slots_slot (q : σ) (ps : List (Piece σ)) :
    slots (slot q :: ps) = q :: slots ps := rfl

/-- The places among pieces side by side are those of both. -/
@[simp] theorem slots_append (ps qs : List (Piece σ)) :
    slots (ps ++ qs) = slots ps ++ slots qs := by
  induction ps with
  | nil => rfl
  | cons p ps ih =>
    cases p with
    | text s => exact ih
    | slot q => exact congrArg (q :: ·) ih

/-- Places with commas between them are as many as they are said to be. -/
@[simp] theorem slots_list (q : σ) (n : Nat) : slots (list q n) = List.replicate n q := by
  induction n using list.induct with
  | case1 => rfl
  | case2 => rfl
  | case3 n ih => exact congrArg (q :: ·) ih

variable {write : σ → α → List Layout}

@[simp] theorem fill_nil (as : List α) : fill write [] as = [] := by
  rw [fill]

@[simp] theorem fill_text (s : String) (ps : List (Piece σ)) (as : List α) :
    fill write (text s :: ps) as = .text s :: fill write ps as := by
  rw [fill]

/-- A place takes the first part that is left. -/
@[simp] theorem fill_slot (q : σ) (ps : List (Piece σ)) (a : α) (as : List α) :
    fill write (slot q :: ps) (a :: as) = write q a ++ fill write ps as := by
  rw [fill]

/-- Pieces are filled in their order. -/
theorem fill_append {ps : List (Piece σ)} {as : List α} (h : (slots ps).length = as.length)
    (qs : List (Piece σ)) (bs : List α) :
    fill write (ps ++ qs) (as ++ bs) = fill write ps as ++ fill write qs bs := by
  induction ps generalizing as with
  | nil =>
    obtain rfl := List.eq_nil_of_length_eq_zero h.symm
    rfl
  | cons p ps ih =>
    cases p with
    | text s =>
      rw [List.cons_append, fill_text, fill_text, ih h]
      rfl
    | slot q =>
      cases as with
      | nil => exact absurd h (by simp)
      | cons a as =>
        rw [List.cons_append, List.cons_append, fill_slot, fill_slot, ih (Nat.succ.inj h),
          List.append_assoc]

/-- Places separated by commas. -/
theorem fill_list (q : σ) (as : List α) :
    fill write (list q as.length) as = separated ", " (as.map (write q)) := by
  induction as with
  | nil => rfl
  | cons a as ih =>
    cases as with
    | nil => rw [List.length_cons, List.length_nil, list, fill_slot, fill_nil, List.append_nil]; rfl
    | cons b as =>
      rw [List.length_cons, List.length_cons, list, fill_slot, fill_text]
      rw [List.length_cons] at ih
      rw [ih]
      rfl

/-- Places separated by commas before other pieces. -/
theorem fill_list_append (write : σ → α → List Layout) (q : σ) (as : List α)
    (ps : List (Piece σ)) (bs : List α) :
    fill write (list q as.length ++ ps) (as ++ bs)
      = separated ", " (as.map (write q)) ++ fill write ps bs := by
  rw [fill_append (by rw [slots_list, List.length_replicate]), fill_list]

/-- Places with commas between them take as many parts, and what follows is left for the text. -/
@[simp] theorem fill_list_text (q : σ) (as : List α) (s : String) :
    fill write (list q as.length ++ [text s]) as
      = separated ", " (as.map (write q)) ++ [.text s] := by
  have whole : fill write (list q as.length ++ [text s]) (as ++ []) = _ :=
    fill_list_append write q as [text s] []
  rw [List.append_nil] at whole
  exact whole

/-- What stands in one place of some pieces, and around it. -/
theorem fill_split (write : σ → α → List Layout) {ps : List (Piece σ)} {before : List α} {q : σ}
    (h : (slots ps)[before.length]? = some q) (after : List α) :
    ∃ post, ∀ a, fill write ps (before ++ a :: after)
      = fillBefore write ps before ++ write q a ++ post := by
  induction ps generalizing before with
  | nil => exact absurd h (by simp)
  | cons p ps ih =>
    cases p with
    | text s =>
      obtain ⟨post, hpost⟩ := ih h
      exact ⟨post, fun a => by rw [fill_text, hpost, fillBefore]; rfl⟩
    | slot q' =>
      cases before with
      | nil =>
        obtain rfl : q' = q := Option.some.inj h
        exact ⟨fill write ps after, fun a => by rw [List.nil_append, fill_slot, fillBefore]; rfl⟩
      | cons b before =>
        obtain ⟨post, hpost⟩ := @ih before h
        refine ⟨post, ?_⟩
        intro a
        rw [List.cons_append, fill_slot, hpost, fillBefore, List.append_assoc, List.append_assoc,
          List.append_assoc]

/-- If every part is written as one node, then so many nodes stand before a place. -/
theorem length_subnodes_fillBefore (one : ∀ q a, (subnodes (write q a)).length = 1)
    {ps : List (Piece σ)} {before : List α} (h : before.length ≤ (slots ps).length) :
    (subnodes (fillBefore write ps before)).length = before.length := by
  induction ps generalizing before with
  | nil =>
    obtain rfl := List.eq_nil_of_length_eq_zero (Nat.le_zero.mp h)
    rfl
  | cons p ps ih =>
    cases p with
    | text s => exact ih h
    | slot q =>
      cases before with
      | nil => rfl
      | cons b before =>
        rw [fillBefore, subnodes_append, List.length_append, one, ih (Nat.le_of_succ_le_succ h),
          List.length_cons, Nat.add_comm]

/-- Parts that are written with the same text give the same text. -/
theorem textOf_fill_congr {write' : σ → α → List Layout} {ps : List (Piece σ)} {as : List α}
    (same : ∀ a ∈ as, ∀ q, textOf (write q a) = textOf (write' q a)) :
    textOf (fill write ps as) = textOf (fill write' ps as) := by
  induction ps generalizing as with
  | nil => rw [fill_nil, fill_nil]
  | cons p ps ih =>
    cases p with
    | text s => rw [fill_text, fill_text, textOf, textOf, ih same]
    | slot q =>
      cases as with
      | nil => exact ih same
      | cons a as =>
        rw [fill_slot, fill_slot, textOf_append, textOf_append, same a List.mem_cons_self,
          ih fun b hb => same b (List.mem_cons_of_mem a hb)]

end Piece

/-! ### Places for expressions -/

/-- A place for an expression: the loosest level that it holds without parentheses, and the
operator right before it, if there is one. -/
structure ExprPlace where
  level : Nat
  operator : Option UnaryOperator := none

namespace ExprPlace

/-- A place that holds every expression. -/
def any : ExprPlace := ⟨Expr.assignLevel, none⟩

/-- The space between the operator before a place and an expression in it. -/
def gap (p : ExprPlace) (e : Expr) : List Layout :=
  match p.operator with
  | some op => signGap op e
  | none => []

/-- What is written for an expression in a place. -/
def layout (source : Option String) (p : ExprPlace) (e : Expr) : List Layout :=
  p.gap e ++ encloseAt p.level e (e.layout source)

/-- What is written in a place before an expression. -/
def opening (p : ExprPlace) (e : Expr) : List Layout :=
  p.gap e ++ if p.level < e.precedence then [.text "("] else []

/-- What is written in a place after an expression. -/
def closing (p : ExprPlace) (e : Expr) : List Layout :=
  if p.level < e.precedence then [.text ")"] else []

/-- Around an expression, a place writes what opens it and what closes it. -/
theorem layout_eq (source : Option String) (p : ExprPlace) (e : Expr) :
    p.layout source e = p.opening e ++ e.layout source :: p.closing e := by
  rw [layout, opening, closing, encloseAt, List.append_assoc]
  split <;> rfl

/-- An expression is the only node in its place. -/
@[simp] theorem subnodes_opening (p : ExprPlace) (e : Expr) : subnodes (p.opening e) = [] := by
  have gap : subnodes (p.gap e) = [] := by
    rw [ExprPlace.gap]
    split
    · exact subnodes_signGap _ e
    · rfl
  rw [opening, subnodes_append, gap]
  split <;> rfl

/-- A place writes one node for its expression. -/
theorem length_subnodes_layout (p : ExprPlace) (e : Expr) :
    (subnodes (p.layout none e)).length = 1 := by
  have closing : subnodes (p.closing e) = [] := by
    rw [ExprPlace.closing]
    split <;> rfl
  rw [layout_eq, subnodes_append, subnodes_opening, Expr.subnodes_layout_cons, closing]
  rfl

/-- What stands around an expression in a place depends on how tightly it binds and on the
sign that it starts with. -/
theorem opening_congr {a b : Expr} (precedence : a.precedence = b.precedence)
    (sign : a.leadingSign? = b.leadingSign?) (p : ExprPlace) : p.opening a = p.opening b := by
  rw [opening, opening, precedence, gap, gap]
  cases p.operator with
  | none => rfl
  | some op => simp only [Expr.signGap_eq_leadingSign, sign]

/-- What closes a place depends only on how tightly the expression binds. -/
theorem closing_congr {a b : Expr} (precedence : a.precedence = b.precedence) (p : ExprPlace) :
    p.closing a = p.closing b := by
  rw [closing, closing, precedence]

end ExprPlace

/-- Where the loosest expressions may stand, none has parentheses. -/
@[simp] theorem encloseAt_assignLevel (e : Expr) (l : Layout) :
    encloseAt Expr.assignLevel e l = [l] :=
  if_neg (Nat.not_lt.mpr e.precedence_le_assignLevel)

/-- A place that holds every expression writes just the expression. -/
@[simp] theorem ExprPlace.layout_any (source : Option String) (e : Expr) :
    any.layout source e = [e.layout source] :=
  encloseAt_assignLevel e _

/-- Behind no operator, a place writes the expression with the parentheses that it needs. -/
@[simp] theorem ExprPlace.layout_level (source : Option String) (level : Nat) (e : Expr) :
    layout source ⟨level, none⟩ e = encloseAt level e (e.layout source) := rfl

/-- Behind an operator, a place writes a gap where two signs would run together. -/
@[simp] theorem ExprPlace.layout_operator (source : Option String) (level : Nat)
    (op : UnaryOperator) (e : Expr) : layout source ⟨level, some op⟩ e
      = signGap op e ++ encloseAt level e (e.layout source) := rfl

namespace Expr

/-- A place of some level that no operator stands right before. -/
def slotAt (level : Nat) : Piece ExprPlace := .slot ⟨level, none⟩

/-- The pieces of an expression. -/
def pieces : Expr → List (Piece ExprPlace)
  | literal _ value => [.text value.text]
  | ident _ name _ => [.text name]
  | select _ _ name _ => [slotAt 0, .text ".", .text name]
  | this _ => [.text "this"]
  | super _ => [.text "super"]
  | binary _ op _ _ =>
    [slotAt op.precedence, .text (" " ++ op.token ++ " "), slotAt (op.precedence - 1)]
  | unary _ op _ =>
    if op.followsOperand then [slotAt op.precedence, .text op.token]
    else [.text op.token, .slot ⟨op.precedence, some op⟩]
  | assign _ _ _ => [slotAt 1, .text " = ", slotAt assignLevel]
  | compoundAssign _ op _ _ => [slotAt 1, .text (" " ++ op.token ++ "= "), slotAt assignLevel]
  | conditional _ _ _ _ =>
    [slotAt (conditionalLevel - 1), .text " ? ", slotAt conditionalLevel, .text " : ",
      slotAt conditionalLevel]
  | cast _ _ _ => [.text "(", .slot .any, .text ") ", slotAt 2]
  | instanceOf _ _ _ => [slotAt 6, .text " instanceof ", .slot .any]
  | call _ _ args => [slotAt 0, .text "("] ++ Piece.list .any args.length ++ [.text ")"]
  | index _ _ _ => [slotAt 0, .text "[", .slot .any, .text "]"]
  | newArray _ element dims init =>
    (if element.isSome then [.text "new ", .slot .any] else [])
      ++ dims.flatMap (fun _ => [.text "[", .slot .any, .text "]"])
      ++ match init with
        | none => []
        | some es =>
          [.text (if element.isSome then (if dims.isEmpty then "[] " else " ") else ""),
            .text "\x7b"] ++ Piece.list .any es.length ++ [.text "\x7d"]
  | newObject _ _ args =>
    [.text "new ", .slot .any, .text "("] ++ Piece.list .any args.length ++ [.text ")"]
  | paren _ _ => [.text "(", .slot .any, .text ")"]
  | primitiveType _ kind => [.text kind.keyword]
  | typeApply _ _ args =>
    [.slot .any, .text "<"] ++ Piece.list .any args.length ++ [.text ">"]
  | arrayType _ _ => [.slot .any, .text "[]"]

/-- Arguments stand in places that hold every expression. -/
theorem layoutArgs_eq (source : Option String) (es : List Expr) :
    layoutArgs source es = es.map (ExprPlace.any.layout source) := by
  induction es with
  | nil => rw [layoutArgs, List.map_nil]
  | cons e es ih => rw [layoutArgs, ih, List.map_cons]; rfl

/-- Dimensions fill the places between their brackets, and what follows is filled with the rest. -/
theorem fill_dims (source : Option String) (dims : List Expr) (ps : List (Piece ExprPlace))
    (es : List Expr) :
    Piece.fill (ExprPlace.layout source)
        (dims.flatMap (fun _ => [.text "[", .slot .any, .text "]"]) ++ ps) (dims ++ es)
      = layoutDims source dims ++ Piece.fill (ExprPlace.layout source) ps es := by
  induction dims with
  | nil => rw [layoutDims]; rfl
  | cons e dims ih => simp [layoutDims, ih]

/-- Dimensions fill the places between their brackets. -/
@[simp] theorem fill_dims_nil (source : Option String) (dims : List Expr) :
    Piece.fill (ExprPlace.layout source)
        (dims.flatMap fun _ => [.text "[", .slot .any, .text "]"]) dims
      = layoutDims source dims := by
  have whole := fill_dims source dims [] []
  rw [List.append_nil, List.append_nil, Piece.fill_nil, List.append_nil] at whole
  exact whole

/-- The layout of an expression is what filling its pieces with its children gives. -/
theorem layout_eq (source : Option String) (e : Expr) : e.layout source
    = captureOr source e.span (Piece.fill (ExprPlace.layout source) e.pieces e.children) := by
  cases e with
  | newArray i element dims init =>
    cases element with
    | none =>
      rw [layout]
      cases init with
      | none => simp [pieces, children, span, info, layoutInit]
      | some es => simp [pieces, children, span, info, fill_dims, layoutInit, layoutArgs_eq, within]
    | some element =>
      rw [layout]
      cases init with
      | none => simp [pieces, children, span, info, layoutInit]
      | some es => simp [pieces, children, span, info, fill_dims, layoutInit, layoutArgs_eq, within]
  | unary i op operand =>
    rw [layout]
    cases hop : op.followsOperand <;> simp [pieces, children, span, info, slotAt, hop]
  | call | newObject | typeApply =>
    simp [layout, pieces, children, span, info, slotAt, layoutArgs_eq, within]
  | _ => simp [layout, pieces, children, span, info, slotAt]

/-- The pieces of an array creation depend on how many dimensions and elements there are. -/
theorem pieces_newArray {i j : NodeInfo} {element element' : Option Expr} {dims dims' : List Expr}
    {init init' : Option (List Expr)} (hElement : element'.isSome = element.isSome)
    (hDims : dims'.length = dims.length)
    (hInit : init'.map List.length = init.map List.length) :
    (newArray i element' dims' init').pieces = (newArray j element dims init).pieces := by
  cases init with
  | none =>
    obtain rfl := Option.map_eq_none_iff.mp hInit
    simp only [pieces, hElement, flatMap_const_of_length hDims]
  | some es =>
    obtain ⟨es', rfl, length⟩ := Option.map_eq_some_iff.mp hInit
    simp only [pieces, hElement, flatMap_const_of_length hDims, isEmpty_of_length hDims, length]

/-- The pieces of an expression do not depend on its children. -/
theorem pieces_withChildren {e : Expr} {cs : List Expr} (h : cs.length = e.children.length) :
    (e.withChildren cs).pieces = e.pieces := by
  cases e with
  | newArray i element dims init =>
    rw [children, List.length_append, List.length_append] at h
    cases element with
    | none =>
      rw [Option.toList_none, List.length_nil, Nat.zero_add] at h
      refine pieces_newArray rfl ?_ ?_
      · rw [List.length_take]
        omega
      · cases init with
        | none => rfl
        | some es =>
          rw [Option.getD_some] at h
          rw [Option.map_some, Option.map_some, Option.map_some, List.length_drop]
          congr 1
          omega
    | some first =>
      rw [Option.toList_some, List.length_singleton] at h
      refine pieces_newArray rfl ?_ ?_
      · rw [List.length_take, List.length_tail]
        omega
      · cases init with
        | none => rfl
        | some es =>
          rw [Option.getD_some] at h
          rw [Option.map_some, Option.map_some, Option.map_some, List.length_drop,
            List.length_tail]
          congr 1
          omega
  | call | newObject | typeApply =>
    have length : cs.tail.length = _ := (List.length_tail (l := cs)).trans (congrArg (· - 1) h)
    rw [withChildren, pieces, pieces, length]
    rfl
  | _ => rfl

/-- An expression binds as tightly with other children. -/
theorem precedence_withChildren (cs : List Expr) (e : Expr) :
    (e.withChildren cs).precedence = e.precedence := by
  cases e with
  | newArray i element dims init => cases element <;> rfl
  | _ => rfl

/-- An expression starts with the same sign, if any, with other children. -/
theorem leadingSign?_withChildren (cs : List Expr) (e : Expr) :
    (e.withChildren cs).leadingSign? = e.leadingSign? := by
  cases e with
  | newArray i element dims init => cases element <;> rfl
  | _ => rfl

/-- Every place of an array creation holds every expression. -/
theorem slots_newArray (i : NodeInfo) (element : Option Expr) (dims : List Expr)
    (init : Option (List Expr)) : Piece.slots (newArray i element dims init).pieces
      = List.replicate (newArray i element dims init).children.length .any := by
  have each : Piece.slots (dims.flatMap fun _ => [.text "[", .slot .any, .text "]"])
      = List.replicate dims.length ExprPlace.any := by
    induction dims with
    | nil => rfl
    | cons e dims ih => exact congrArg (ExprPlace.any :: ·) ih
  cases element <;> cases init <;>
    simp [pieces, children, each, ← List.replicate_append_replicate, List.replicate_succ]

/-- The places of an expression are those of its pieces, in which its children stand. -/
theorem places_eq (e : Expr) :
    e.places = (e.children.zip (Piece.slots e.pieces)).map fun c => (c.1, c.2.level) := by
  have list (es : List Expr) : openPlaces es
      = (es.zip (List.replicate es.length ExprPlace.any)).map fun c => (c.1, c.2.level) := by
    induction es with
    | nil => rfl
    | cons e es ih => exact congrArg ((e, assignLevel) :: ·) ih
  cases e with
  | newArray i element dims init => rw [slots_newArray, places, list]; rfl
  | unary i op operand =>
    cases hop : op.followsOperand <;> simp [places, children, pieces, slotAt, hop]
  | call | newObject | typeApply =>
    simp [places, children, pieces, slotAt, list, List.replicate_succ, ExprPlace.any]
  | _ => simp [places, children, pieces, slotAt, ExprPlace.any]

/-- Only the operator of a unary expression stands right before a place, which holds what binds
as tightly as the operator. -/
theorem pieces_of_operator {e : Expr} {q : ExprPlace} (h : q ∈ Piece.slots e.pieces)
    {op : UnaryOperator} (hop : q.operator = some op) :
    q.level = op.precedence ∧ op.followsOperand = false ∧
      e.pieces = [.text op.token, .slot q] := by
  have none (hq : q.operator = none) : q.level = op.precedence ∧ op.followsOperand = false ∧
      e.pieces = [.text op.token, .slot q] := absurd (hop.symm.trans hq) (by simp)
  cases e with
  | newArray i element dims init =>
    rw [slots_newArray] at h
    exact none (by rw [List.eq_of_mem_replicate h]; rfl)
  | unary i op' operand =>
    cases follows : op'.followsOperand with
    | true =>
      obtain rfl : q = ⟨op'.precedence, .none⟩ := by simpa [pieces, slotAt, follows] using h
      exact none rfl
    | false =>
      obtain rfl : q = ⟨op'.precedence, some op'⟩ := by simpa [pieces, follows] using h
      obtain rfl : op' = op := Option.some.inj hop
      exact ⟨rfl, follows, by simp [pieces, follows]⟩
  | literal | ident | this | super | primitiveType => exact absurd h (by simp [pieces])
  | select | paren | arrayType =>
    obtain rfl : q = _ := by simpa [pieces, slotAt] using h
    exact none rfl
  | binary | assign | compoundAssign | cast | instanceOf | index =>
    obtain rfl | rfl : q = _ ∨ q = _ := by simpa [pieces, slotAt] using h
    · exact none rfl
    · exact none rfl
  | conditional =>
    obtain rfl | rfl : q = _ ∨ q = _ := by simpa [pieces, slotAt] using h
    · exact none rfl
    · exact none rfl
  | call | newObject | typeApply =>
    obtain rfl | ⟨-, rfl⟩ : q = _ ∨ _ ∧ q = _ := by simpa [pieces, slotAt] using h
    · exact none rfl
    · exact none rfl

/-- What stands around one child of an expression does not depend on the child, apart from
what its place writes around it. -/
theorem withChildren_around {e : Expr} {before after : List Expr} {c : Expr}
    (children : e.children = before ++ c :: after) {q : ExprPlace}
    (slot : (Piece.slots e.pieces)[before.length]? = some q) :
    ∃ front back, (subnodes front).length = before.length ∧
      (∀ op, q.operator = some op → q.level = op.precedence ∧ op.followsOperand = false ∧
        textOf front = op.token) ∧
      ∀ c', (e.withChildren (before ++ c' :: after)).layout none
          = .node (front ++ q.layout none c' ++ back) ∧
        (e.withChildren (before ++ c' :: after)).children = before ++ c' :: after := by
  obtain ⟨back, split⟩ := Piece.fill_split (ExprPlace.layout none) slot after
  have inside : before.length < (Piece.slots e.pieces).length :=
    (List.getElem?_eq_some_iff.mp slot).1
  refine ⟨_, back, Piece.length_subnodes_fillBefore ExprPlace.length_subnodes_layout
    (Nat.le_of_lt inside), ?_, ?_⟩
  · intro op hop
    obtain ⟨level, follows, pieces⟩ := pieces_of_operator (List.mem_of_getElem? slot) hop
    have first : before.length < 1 := by
      rw [pieces] at inside
      exact inside
    obtain rfl := List.eq_nil_of_length_eq_zero (Nat.lt_one_iff.mp first)
    refine ⟨level, follows, ?_⟩
    rw [pieces]
    exact String.append_empty
  · intro c'
    have length : (before ++ c' :: after).length = e.children.length := by
      rw [children, List.length_append, List.length_append]
      rfl
    refine ⟨?_, children_withChildren length⟩
    rw [layout_eq, captureOr_none, pieces_withChildren length, children_withChildren length, split]

end Expr

end JavaRefactor
