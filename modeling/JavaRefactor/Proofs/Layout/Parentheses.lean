import JavaRefactor.Proofs.Token.Replacement

/-!
# Parentheses and places

A scan finds the direct subexpressions of an expression through `Expr.places`, each with the
loosest level that its place holds without parentheses.  The layout decides on its own, form by
form, where it puts parentheses.  Both agree: the text of an expression is the same for every
subexpression put into a place, but for a blank between two signs, and the subexpression stands in
parentheses exactly if it binds more loosely than the level of the place (`EnclosedBeyond`).  The
expressions of statements and declarations stand in places that hold every expression, where the
layout never writes parentheses (`WrittenBare`).
-/

namespace JavaRefactor

open Layout

/-! ### Text around an expression -/

/-- A text that is written around an expression: the expression stands in parentheses exactly if it
binds more loosely than a level, and the rest of the text is the same for every expression, but for
a blank that may stand in front. -/
def EnclosedBeyond (level : Nat) (text : Expr → String) : Prop :=
  ∃ front back, ∀ x, ∃ gap, (gap = "" ∨ gap = " ") ∧
    text x = front ++ gap ++ (if level < x.precedence then "(" ++ x.print ++ ")" else x.print)
      ++ back

/-- A text that is written around an expression, which never stands in parentheses. -/
def WrittenBare (text : Expr → String) : Prop :=
  ∃ front back, ∀ x, text x = front ++ x.print ++ back

/-- More text around one in which an expression is written. -/
theorem WrittenBare.within {text text' : Expr → String} (h : WrittenBare text)
    (pre post : String) (whole : ∀ x, text' x = pre ++ text x ++ post) : WrittenBare text' := by
  obtain ⟨front, back, same⟩ := h
  refine ⟨pre ++ front, back ++ post, ?_⟩
  intro x
  rw [whole, same]
  simp only [String.append_assoc]

/-- A layout with a node for an expression is written around it. -/
theorem writtenBare_of_layout {layout : Expr → List Layout} (front back : List Layout)
    (h : ∀ x, layout x = front ++ x.layout none :: back) :
    WrittenBare fun x => textOf (layout x) := by
  refine ⟨textOf front, textOf back, ?_⟩
  intro x
  show textOf (layout x) = _
  rw [h, textOf_append, textOf, String.append_assoc]
  rfl

/-- The text before an expression in a place is a blank or nothing. -/
theorem ExprPlace.textOf_gap_cases (q : ExprPlace) (e : Expr) :
    textOf (q.gap e) = "" ∨ textOf (q.gap e) = " " := by
  rcases q.gap_cases e with none | ⟨blank, -⟩
  · rw [none]
    exact .inl rfl
  · rw [blank]
    exact .inr rfl

/-! ### Expressions -/

namespace Expr

variable {e c : Expr} {level : Nat} {before after : List (Expr × Nat)}

/-- Pairing a list with what another list of its length is paired with. -/
theorem zip_map_snd_zip {α β : Type} {as bs : List α} (cs : List β)
    (h : as.length = bs.length) : as.zip ((bs.zip cs).map Prod.snd) = as.zip cs := by
  induction as generalizing bs cs with
  | nil => rfl
  | cons a as ih =>
    cases bs with
    | nil => exact absurd h (by simp)
    | cons b bs =>
      cases cs with
      | nil => rfl
      | cons c cs => exact congrArg ((a, c) :: ·) (ih cs (Nat.succ.inj h))

/-- Other children of an expression stand in the same places. -/
theorem places_withChildren {cs : List Expr} (h : cs.length = e.children.length) :
    (e.withChildren cs).places = cs.zip (e.places.map Prod.snd) := by
  have levels : e.places.map Prod.snd
      = ((e.children.zip (Piece.slots e.pieces)).map Prod.snd).map ExprPlace.level := by
    rw [places_eq, List.map_map, List.map_map]
    rfl
  rw [places_eq, pieces_withChildren h, children_withChildren h, levels, List.zip_map_right,
    zip_map_snd_zip _ h]
  rfl

/-- A place of an expression is one of its pieces. -/
theorem exists_slot_of_places (h : e.places = before ++ (c, level) :: after) :
    ∃ q, (Piece.slots e.pieces)[before.length]? = some q ∧ q.level = level := by
  have here : e.places[before.length]? = some (c, level) := by
    rw [h, List.getElem?_append_right (Nat.le_refl _), Nat.sub_self]
    rfl
  rw [places_eq, List.getElem?_map] at here
  obtain ⟨⟨c', q⟩, zipped, same⟩ := Option.map_eq_some_iff.mp here
  obtain ⟨-, slot⟩ := List.getElem?_zip_eq_some.mp zipped
  exact ⟨q, slot, congrArg Prod.snd same⟩

/-- The children of an expression stand in its places. -/
theorem children_of_places (h : e.places = before ++ (c, level) :: after) :
    e.children = before.map Prod.fst ++ c :: after.map Prod.fst := by
  rw [← map_fst_places, h, List.map_append, List.map_cons]

/-- An expression with another child in one of its places. -/
def withPlaced (before after : List (Expr × Nat)) (e x : Expr) : Expr :=
  e.withChildren (before.map Prod.fst ++ x :: after.map Prod.fst)

/-- An expression with its own child in a place is the expression. -/
theorem withPlaced_self (h : e.places = before ++ (c, level) :: after) :
    e.withPlaced before after c = e := by
  rw [withPlaced, ← children_of_places h, withChildren_children]

/-- Another child in one place leaves all other children and the levels of all places. -/
theorem places_withPlaced (h : e.places = before ++ (c, level) :: after) (x : Expr) :
    (e.withPlaced before after x).places = before ++ (x, level) :: after := by
  have length : (before.map Prod.fst ++ x :: after.map Prod.fst).length = e.children.length := by
    rw [children_of_places h, List.length_append, List.length_append]
    rfl
  have own (ps : List (Expr × Nat)) : (ps.map Prod.fst).zip (ps.map Prod.snd) = ps := by
    rw [List.zip_map']
    exact List.map_id ps
  have levels : e.places.map Prod.snd = before.map Prod.snd ++ level :: after.map Prod.snd := by
    rw [h, List.map_append, List.map_cons]
  rw [withPlaced, places_withChildren length, levels,
    List.zip_append (by rw [List.length_map, List.length_map]), List.zip_cons_cons, own, own]

/-- The text of an expression around one of its children. -/
theorem enclosedBeyond_withPlaced (h : e.places = before ++ (c, level) :: after) :
    EnclosedBeyond level fun x => (e.withPlaced before after x).print := by
  obtain ⟨q, slot, rfl⟩ := exists_slot_of_places h
  rw [← List.length_map (f := Prod.fst)] at slot
  obtain ⟨front, back, -, -, parts⟩ := withChildren_around (children_of_places h) slot
  refine ⟨textOf front, textOf back, ?_⟩
  intro x
  refine ⟨textOf (q.gap x), q.textOf_gap_cases x, ?_⟩
  show ((e.withPlaced before after x).layout none).toText = _
  rw [withPlaced, (parts x).1, toText, textOf_append, textOf_append, ExprPlace.textOf_layout,
    textOf_encloseAt]
  simp only [String.append_assoc]

end Expr

/-! ### Statements and declarations -/

/-- The text of a statement around one of its expressions. -/
theorem Stmt.writtenBare_rebuilt {s : Stmt} {before after : List StmtPart} {e : Expr}
    (h : s.children = before ++ .expr e :: after) (ind : Indent) (inHeader : Bool) :
    WrittenBare fun x =>
      textOf ((s.rebuilt (before ++ .expr x :: after)).layout none ind inHeader) := by
  obtain ⟨q, front, back, -, parts⟩ := rebuilt_around h ind inHeader
  have bare : WrittenBare fun x =>
      textOf ((s.rebuilt (before ++ .expr x :: after)).parts ind inHeader) := by
    refine writtenBare_of_layout front back ?_
    intro x
    obtain ⟨-, own, -⟩ := parts (.expr x) (.expr x e)
    rw [own, List.append_assoc]
    rfl
  refine bare.within (textOf (s.above ind inHeader)) "" ?_
  intro x
  obtain ⟨above, -, -⟩ := parts (.expr x) (.expr x e)
  rw [layout_eq, above, textOf_append, textOf_singleton, toText, String.append_empty]

/-- The children of a statement with another expression in a place are the old ones but for that. -/
theorem Stmt.children_rebuilt {s : Stmt} {before after : List StmtPart} {e : Expr}
    (h : s.children = before ++ .expr e :: after) (x : Expr) :
    (s.rebuilt (before ++ .expr x :: after)).children = before ++ .expr x :: after := by
  obtain ⟨q, front, back, -, parts⟩ := rebuilt_around h ⟨"", 0⟩ false
  exact (parts (.expr x) (.expr x e)).2.2

/-- A statement with its own children is the statement. -/
theorem Stmt.rebuilt_self {s : Stmt} {parts : List StmtPart} (h : s.children = parts) :
    s.rebuilt parts = s := by
  rw [← h]
  exact s.withParts_children

/-- The text of a declaration around one of its expressions. -/
theorem VarDecl.writtenBare_withChildren {d : VarDecl} {es es' : List Expr} {e : Expr}
    (h : d.children = es ++ e :: es') :
    WrittenBare fun x => textOf ((d.withChildren (es ++ x :: es')).layout none) := by
  obtain ⟨front, back, -, parts⟩ := withChildren_around h
  exact writtenBare_of_layout front back fun x => (parts x).1

/-- The text of a method around its return type. -/
theorem MethodDecl.writtenBare_returnType (ind : Indent) (m : MethodDecl) :
    WrittenBare fun x => (MethodDecl.layout ind { m with returnType := x }).toText := by
  refine writtenBare_of_layout
    (.text "public " :: (if m.isStatic then [.text "static "] else [])
      ++ (if m.typeParams.isEmpty then []
          else [.text ("<" ++ ", ".intercalate m.typeParams ++ "> ")]))
    ([.text " ", .text m.name]
      ++ (within "(" ") " (separated ", " (m.params.map (VarDecl.layout none)))
        ++ m.body.layout none ind false)) ?_
  intro x
  simp only [List.append_assoc, List.cons_append, List.nil_append]

/-- The text of a method around one of its parameters. -/
theorem MethodDecl.writtenBare_param (ind : Indent) (m : MethodDecl) (before after : List VarDecl)
    {d : Expr → VarDecl} (h : WrittenBare fun x => textOf ((d x).layout none)) :
    WrittenBare fun x =>
      (MethodDecl.layout ind { m with params := before ++ d x :: after }).toText := by
  have params (x : Expr) :
      separated ", " ((before ++ d x :: after).map (VarDecl.layout none))
        = (before.map (VarDecl.layout none)).flatMap (· ++ [Layout.text ", "])
          ++ (d x).layout none
          ++ (after.map (VarDecl.layout none)).flatMap (Layout.text ", " :: ·) := by
    rw [List.map_append, List.map_cons, separated_split]
  refine h.within
    (textOf (.text "public " :: (if m.isStatic then [.text "static "] else [])
      ++ (if m.typeParams.isEmpty then []
          else [.text ("<" ++ ", ".intercalate m.typeParams ++ "> ")])
      ++ [m.returnType.layout none, .text " ", .text m.name, .text "("]
      ++ (before.map (VarDecl.layout none)).flatMap (· ++ [Layout.text ", "])))
    (textOf ((after.map (VarDecl.layout none)).flatMap (Layout.text ", " :: ·)
      ++ .text ") " :: m.body.layout none ind false)) ?_
  intro x
  rw [layout, toText, within, params]
  simp only [textOf_append, textOf, List.append_assoc, List.cons_append, List.nil_append,
    String.append_assoc]

/-- The text of a class around one of its fields. -/
theorem TypeDecl.writtenBare_field (t : TypeDecl) (before after : List VarDecl)
    {d : Expr → VarDecl} (h : WrittenBare fun x => textOf ((d x).layout none)) :
    WrittenBare fun x => (TypeDecl.layout { t with fields := before ++ d x :: after }).toText := by
  obtain ⟨front, back, -, whole⟩ := t.layout_field before after
  refine h.within (textOf front) (textOf (back ++ [Layout.text "\x7d"])) ?_
  intro x
  rw [whole, toText, textOf_append, textOf_append]

/-! ### Both enumerations -/

/-- The places of an expression hold its children in their order, and the text around a place has
parentheses exactly for an expression that binds more loosely than the level of the place.
No expression binds more loosely than assignments, and the expressions of statements, fields,
parameters and return types are written without parentheses. -/
theorem parentheses_match_places :
    (∀ e : Expr, e.places.map Prod.fst = e.children) ∧
    (∀ (e c : Expr) (level : Nat) (before after : List (Expr × Nat)),
      e.places = before ++ (c, level) :: after →
        e.withPlaced before after c = e ∧
        (∀ x, (e.withPlaced before after x).places = before ++ (x, level) :: after) ∧
        EnclosedBeyond level fun x => (e.withPlaced before after x).print) ∧
    (∀ x : Expr, x.precedence ≤ Expr.assignLevel) ∧
    (∀ (s : Stmt) (e : Expr) (before after : List StmtPart),
      s.children = before ++ .expr e :: after →
        s.rebuilt (before ++ .expr e :: after) = s ∧
        (∀ x, (s.rebuilt (before ++ .expr x :: after)).children = before ++ .expr x :: after) ∧
        ∀ ind inHeader, WrittenBare fun x =>
          textOf ((s.rebuilt (before ++ .expr x :: after)).layout none ind inHeader)) ∧
    (∀ (d : VarDecl) (e : Expr) (es es' : List Expr), d.children = es ++ e :: es' →
      d.withChildren (es ++ e :: es') = d ∧
      (∀ x, (d.withChildren (es ++ x :: es')).children = es ++ x :: es') ∧
      (∀ (t : TypeDecl) (before after : List VarDecl), WrittenBare fun x =>
        (TypeDecl.layout
          { t with fields := before ++ d.withChildren (es ++ x :: es') :: after }).toText) ∧
      ∀ (ind : Indent) (m : MethodDecl) (before after : List VarDecl), WrittenBare fun x =>
        (MethodDecl.layout ind
          { m with params := before ++ d.withChildren (es ++ x :: es') :: after }).toText) ∧
    ∀ (ind : Indent) (m : MethodDecl), WrittenBare fun x =>
      (MethodDecl.layout ind { m with returnType := x }).toText := by
  refine ⟨Expr.map_fst_places, ?_, Expr.precedence_le_assignLevel, ?_, ?_,
    MethodDecl.writtenBare_returnType⟩
  · intro e c level before after h
    exact ⟨Expr.withPlaced_self h, Expr.places_withPlaced h, Expr.enclosedBeyond_withPlaced h⟩
  · intro s e before after h
    exact ⟨Stmt.rebuilt_self h, Stmt.children_rebuilt h, Stmt.writtenBare_rebuilt h⟩
  · intro d e es es' h
    have bare := VarDecl.writtenBare_withChildren h
    refine ⟨?_, ?_, ?_, ?_⟩
    · rw [← h]
      exact d.withChildren_children
    · intro x
      obtain ⟨front, back, -, parts⟩ := VarDecl.withChildren_around h
      exact (parts x).2
    · intro t before after
      exact t.writtenBare_field before after bare
    · intro ind m before after
      exact m.writtenBare_param ind before after bare

/-- The expression `a - (b - c)`. -/
private def nestedDifference : Expr :=
  let name (text : String) : Expr := .ident (.ofType (.primitive .int)) text none
  let info := NodeInfo.ofType (.primitive .int)
  .binary info .sub (name "a") (.binary info .sub (name "b") (name "c"))

/-- The right place of a difference holds what binds more tightly than a difference, so the
difference there has parentheses; a returned one has none. -/
theorem parentheses_match_places_difference :
    (∃ a d, nestedDifference.places = [(a, 4)] ++ (d, 3) :: [] ∧ d.precedence = 4 ∧
      EnclosedBeyond 3 fun x => (nestedDifference.withPlaced [(a, 4)] [] x).print) ∧
    nestedDifference.print = "a - (b - c)" ∧
    (∀ ind inHeader, WrittenBare fun x =>
      textOf (((Stmt.ret .synthetic (some nestedDifference)).rebuilt
        ([] ++ .expr x :: [])).layout none ind inHeader)) := by
  obtain ⟨-, exprs, -, stmts, -⟩ := parentheses_match_places
  refine ⟨⟨_, _, rfl, rfl, (exprs nestedDifference _ _ [_] [] rfl).2.2⟩, by decide +kernel, ?_⟩
  exact (stmts (.ret .synthetic (some nestedDifference)) nestedDifference [] [] rfl).2.2

end JavaRefactor
