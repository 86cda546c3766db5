import JavaRefactor.Proofs.Layout.Printed
import JavaRefactor.Proofs.Layout.StmtPieces
import JavaRefactor.Proofs.Text.FirstCharacter
import JavaRefactor.Unit.Basic

/-!
# What lines start with

The indentation of a line is read off its text, so it is what the line break was written with only
if the text behind does not start with a blank.  The text of a statement starts with a keyword, a
brace or an expression, and an expression with its first operand or with a character of its own
(`Expr.isFlush_print`).  But an identifier with an empty name and an array creation without any part
are printed as nothing, and then the text goes on with a blank, as in ` + 1;`.  So all expressions
must be printed as some text, and names must not start with a blank (`Stmt.isFlush_parts`).
-/

namespace JavaRefactor

open Layout

/-! ### Texts that start flush -/

/-- Whether a text starts with something else than a character that indents lines, if it starts
with anything. -/
def IsFlush (s : String) : Prop :=
  s.toList.head?.all (fun c => !CompilationUnit.isIndentation c) = true

instance (s : String) : Decidable (IsFlush s) := inferInstanceAs (Decidable (_ = true))

namespace IsFlush

variable {s t : String}

/-- A text without characters that indent lines starts with none. -/
theorem of_forall (h : ∀ c ∈ s.toList, CompilationUnit.isIndentation c = false) : IsFlush s :=
  StartsWith.of_forall fun c hc => by rw [h c hc]; rfl

/-- What follows a flush text counts only if the text is empty. -/
theorem append (h : IsFlush s) (h' : s = "" → IsFlush t) : IsFlush (s ++ t) :=
  StartsWith.append h h'

/-- A text starts with no indentation if its first part does not and is not empty. -/
theorem append_left (h : IsFlush s) (nonempty : s ≠ "") : IsFlush (s ++ t) :=
  h.append fun empty => absurd empty nonempty

/-- The first character of a flush text that is not empty. -/
theorem exists_cons (h : IsFlush s) (nonempty : s ≠ "") :
    ∃ c cs, s.toList = c :: cs ∧ CompilationUnit.isIndentation c = false := by
  obtain ⟨c, cs, hs, flush⟩ := StartsWith.exists_cons h nonempty
  exact ⟨c, cs, hs, by simpa using flush⟩

/-- A text that starts with neither a sign nor a blank. -/
theorem of_isPlain (h : StartsWith Text.isPlain s) : IsFlush s := by
  refine StartsWith.mono h fun c plain => ?_
  simp only [Text.isPlain, Bool.and_eq_true, bne_iff_ne] at plain
  rw [CompilationUnit.isIndentation, Bool.not_eq_true', Bool.or_eq_false_iff,
    beq_eq_false_iff_ne, beq_eq_false_iff_ne]
  exact ⟨plain.1.2, plain.2⟩

end IsFlush

/-! ### Literals -/

/-- No literal starts with a blank. -/
theorem Literal.isFlush_text (l : Literal) : IsFlush l.text := by
  obtain ⟨body, text, plain⟩ := l.exists_text_eq
  have sign (negative : Bool) : IsFlush (Decimal.Style.text.sign negative) := by
    cases negative <;> decide
  rw [text]
  exact (sign l.isNegative).append fun _ => .of_isPlain plain

/-! ### Expressions -/

namespace Expr

/-- Whether an expression is printed as some text, and is no identifier with a blank in its
name. -/
def isWritten (e : Expr) : Bool :=
  e.print != "" &&
    match e with
    | ident _ name _ => name.toList.all fun c => !CompilationUnit.isIndentation c
    | _ => true

/-- An expression that is written is printed as some text. -/
theorem print_ne_empty {e : Expr} (h : e.isWritten = true) : e.print ≠ "" :=
  bne_iff_ne.mp (Bool.and_eq_true_iff.mp h).1

/-- An identifier is printed as its name. -/
theorem print_ident (i : NodeInfo) (name : String) (s : Option SymbolId) :
    (ident i name s).print = name := by
  simp [print, layout, toText, textOf]

/-- The operand that the text of an expression starts with, and the level of its place. -/
def left? : Expr → Option (Nat × Expr)
  | select _ x _ _ | call _ x _ | index _ x _ => some (0, x)
  | binary _ op x _ => some (op.precedence, x)
  | unary _ op x => if op.followsOperand then some (op.precedence, x) else none
  | assign _ x _ | compoundAssign _ _ x _ => some (1, x)
  | conditional _ x _ _ => some (conditionalLevel - 1, x)
  | instanceOf _ x _ => some (6, x)
  | typeApply _ x _ | arrayType _ x => some (assignLevel, x)
  | _ => none

/-- The operand that an expression starts with is one of its children. -/
theorem mem_children_of_left? {e x : Expr} {level : Nat} (h : e.left? = some (level, x)) :
    x ∈ e.children := by
  cases e with
  | unary i op operand =>
    rw [left?] at h
    split at h
    · obtain ⟨-, rfl⟩ := Prod.mk.inj (Option.some.inj h)
      exact List.mem_cons_self
    · exact absurd h (by simp)
  | select | call | index | binary | assign | compoundAssign | conditional | instanceOf | typeApply
  | arrayType =>
    obtain ⟨-, rfl⟩ := Prod.mk.inj (Option.some.inj h)
    exact List.mem_cons_self
  | _ => exact absurd h (by simp [left?])

/-- Only the token of an operator that follows its operand is a sign behind a first operand. -/
theorem exists_print_eq_of_left? {e x : Expr} {level : Nat} (h : e.left? = some (level, x)) :
    ∃ c more, e.print.toList = x.charsAt level ++ c :: more ∧
      (c = '+' ∨ c = '-' → ∃ i op, e = .unary i op x ∧ op.followsOperand = true ∧
        op.token.toList.head? = some c) := by
  -- all other forms go on with a token that is no sign
  have unsigned {place : Nat} {operand : Expr} {c : Char} {more : List Char}
      (here : some (place, operand) = some (level, x))
      (print : e.print.toList = operand.charsAt place ++ c :: more)
      (noSign : ¬ (c = '+' ∨ c = '-')) :
      ∃ c more, e.print.toList = x.charsAt level ++ c :: more ∧
        (c = '+' ∨ c = '-' → ∃ i op, e = .unary i op x ∧ op.followsOperand = true ∧
          op.token.toList.head? = some c) := by
    obtain ⟨rfl, rfl⟩ := Prod.mk.inj (Option.some.inj here)
    exact ⟨c, more, print, fun sign => absurd sign noSign⟩
  cases e with
  | unary i op operand =>
    rw [left?] at h
    split at h
    · rename_i follows
      obtain ⟨rfl, rfl⟩ := Prod.mk.inj (Option.some.inj h)
      have print := print_unary_of_followsOperand i follows operand
      cases op with
      | postIncrement => exact ⟨'+', ['+'], print, fun sign => ⟨i, _, rfl, rfl, rfl⟩⟩
      | postDecrement => exact ⟨'-', ['-'], print, fun sign => ⟨i, _, rfl, rfl, rfl⟩⟩
      | _ => exact absurd follows Bool.false_ne_true
    · exact absurd h (by simp)
  | select => exact unsigned h (print_select ..) (by decide)
  | call => exact unsigned h (print_call ..) (by decide)
  | index => exact unsigned h (print_index ..) (by decide)
  | binary => exact unsigned h (print_binary ..) (by decide)
  | assign => exact unsigned h (print_assign ..) (by decide)
  | compoundAssign => exact unsigned h (print_compoundAssign ..) (by decide)
  | conditional => exact unsigned h (print_conditional ..) (by decide)
  | instanceOf => exact unsigned h (print_instanceOf ..) (by decide)
  | typeApply => exact unsigned h (print_typeApply ..) (by decide)
  | arrayType => exact unsigned h (print_arrayType ..) (by decide)
  | _ => exact absurd h (by simp [left?])

/-- What the text of an array creation can start with, if it is written at all. -/
def opensCreation (c : Char) : Bool := c == 'n' || c == '[' || c == '\x7b'

/-- An array creation starts with its keyword, or with a bracket or brace. -/
theorem startsWith_newArray (i : NodeInfo) (element : Option Expr) (dims : List Expr)
    (init : Option (List Expr)) :
    StartsWith opensCreation (newArray i element dims init).print := by
  have token (first : String) {rest : String}
      (opens : StartsWith opensCreation first ∧ first ≠ "") :
      StartsWith opensCreation (first ++ rest) := opens.1.append_left opens.2
  cases element with
  | some element =>
    rw [print, layout, captureOr_none, toText, List.append_assoc, List.cons_append, textOf, toText]
    exact token "new " (by decide)
  | none =>
    rw [print, layout, captureOr_none, toText]
    cases dims with
    | cons d dims =>
      rw [layoutDims, List.append_assoc, List.cons_append, textOf, toText]
      exact token "[" (by decide)
    | nil =>
      cases init with
      | none => decide
      | some es =>
        rw [layoutDims, layoutInit, within, List.nil_append]
        simp only [textOf, toText, String.empty_append]
        exact token "\x7b" (by decide)

/-- An expression that does not start with an operand is a literal, an identifier or a prefix
operator, or starts with a token that is neither a sign nor a blank. -/
theorem form_of_left?_eq_none {e : Expr} (h : e.left? = none) :
    (∃ i value, e = .literal i value) ∨ (∃ i name s, e = .ident i name s) ∨
      (∃ i op operand, e = .unary i op operand ∧ op.followsOperand = false) ∨
        StartsWith Text.isPlain e.print := by
  have token (s : String) (plain : StartsWith Text.isPlain s ∧ s ≠ "")
      (laid : ∃ parts, e.layout none = .node (.text s :: parts)) :
      StartsWith Text.isPlain e.print := by
    obtain ⟨parts, laid⟩ := laid
    rw [print, laid, toText, textOf, toText]
    exact plain.1.append_left plain.2
  cases e with
  | literal i value => exact .inl ⟨i, value, rfl⟩
  | ident i name s => exact .inr (.inl ⟨i, name, s, rfl⟩)
  | unary i op operand =>
    refine .inr (.inr (.inl ⟨i, op, operand, rfl, ?_⟩))
    cases follows : op.followsOperand with
    | true => exact absurd h (by simp [left?, follows])
    | false => rfl
  | this =>
    exact .inr (.inr (.inr (token "this" (by decide) ⟨_, by rw [layout, captureOr_none]⟩)))
  | super =>
    exact .inr (.inr (.inr (token "super" (by decide) ⟨_, by rw [layout, captureOr_none]⟩)))
  | cast =>
    exact .inr (.inr (.inr (token "(" (by decide) ⟨_, by rw [layout, captureOr_none]; rfl⟩)))
  | paren => exact .inr (.inr (.inr (token "(" (by decide) ⟨_, by rw [layout, captureOr_none]⟩)))
  | newObject =>
    exact .inr (.inr (.inr (token "new " (by decide) ⟨_, by rw [layout, captureOr_none]; rfl⟩)))
  | primitiveType i kind =>
    have plain : StartsWith Text.isPlain kind.keyword ∧ kind.keyword ≠ "" := by
      cases kind <;> decide
    exact .inr (.inr (.inr (token kind.keyword plain ⟨_, by rw [layout, captureOr_none]⟩)))
  | newArray i element dims init =>
    refine .inr (.inr (.inr ((startsWith_newArray i element dims init).mono fun c opens => ?_)))
    rw [opensCreation, Bool.or_eq_true, Bool.or_eq_true, beq_iff_eq, beq_iff_eq,
      beq_iff_eq] at opens
    obtain (rfl | rfl) | rfl := opens
    all_goals decide
  | _ => exact absurd h (by simp [left?])

/-- An expression starts with its first operand, or with the parenthesis around it. -/
theorem isFlush_of_left {e left : Expr} (written : left.print ≠ "") (flush : IsFlush left.print)
    {level : Nat} {more : List Char} (print : e.print.toList = left.charsAt level ++ more) :
    IsFlush e.print := by
  obtain ⟨c, cs, chars, noBlank⟩ := flush.exists_cons written
  rw [IsFlush, print]
  by_cases fits : left.precedence ≤ level
  · rw [charsAt_of_le fits, chars, List.cons_append, List.head?_cons, Option.all_some, noBlank]
    rfl
  · rw [charsAt_of_lt (Nat.lt_of_not_le fits)]
    rfl

/-- An expression does not start with a blank if everything in it is written. -/
theorem isFlush_print {e : Expr} (h : ∀ x ∈ e.nodes, x.isWritten = true) : IsFlush e.print := by
  induction e using Expr.induction with
  | step e ih =>
    rw [nodes_eq] at h
    cases leftmost : e.left? with
    | some place =>
      obtain ⟨level, x⟩ := place
      have hx := mem_children_of_left? leftmost
      obtain ⟨c, more, print, -⟩ := exists_print_eq_of_left? leftmost
      have inner : ∀ y ∈ x.nodes, y.isWritten = true := fun y hy =>
        h y (List.mem_cons_of_mem e (List.mem_flatMap.mpr ⟨x, hx, hy⟩))
      have own : x ∈ x.nodes := by
        rw [nodes_eq]
        exact List.mem_cons_self
      exact isFlush_of_left (print_ne_empty (inner x own)) (ih x hx inner) print
    | none =>
      rcases form_of_left?_eq_none leftmost with
        ⟨i, value, rfl⟩ | ⟨i, name, s, rfl⟩ | ⟨i, op, operand, rfl, follows⟩ | plain
      · rw [print_literal]
        exact value.isFlush_text
      · have spaced := (Bool.and_eq_true_iff.mp (h _ List.mem_cons_self)).2
        rw [print_ident]
        exact .of_forall fun c hc => by simpa using List.all_eq_true.mp spaced c hc
      · rw [IsFlush, print_unary i follows]
        cases op <;> rfl
      · exact .of_isPlain plain

end Expr

/-! ### Statements -/

/-- A statement is some text, which does not start with a blank if all expressions in it are
written. -/
theorem Stmt.isFlush_parts {s : Stmt} (h : ∀ e ∈ s.exprs, e.isWritten = true) (ind : Indent) :
    textOf (s.parts ind false) ≠ "" ∧ IsFlush (textOf (s.parts ind false)) := by
  have starts {first : String} (start : first ≠ "" ∧ IsFlush first)
      (split : ∃ rest, textOf (s.parts ind false) = first ++ rest) :
      textOf (s.parts ind false) ≠ "" ∧ IsFlush (textOf (s.parts ind false)) := by
    obtain ⟨rest, split⟩ := split
    rw [split]
    exact ⟨fun empty => start.1 (String.append_eq_empty_iff.mp empty).1,
      start.2.append_left start.1⟩
  have token (t : String) (start : t ≠ "" ∧ IsFlush t)
      (pieces : ∃ ps, s.pieces ind false = .text t :: ps) :
      textOf (s.parts ind false) ≠ "" ∧ IsFlush (textOf (s.parts ind false)) := by
    obtain ⟨ps, pieces⟩ := pieces
    exact starts start ⟨_, by rw [parts, pieces, Piece.fill_text, textOf, toText]⟩
  have operand {e : Expr} (he : StmtPart.expr e ∈ s.children) :
      e.print ≠ "" ∧ IsFlush e.print := by
    have inner : ∀ x ∈ e.nodes, x.isWritten = true := by
      intro x hx
      rw [exprs_eq] at h
      exact h x (List.mem_flatMap.mpr ⟨.expr e, he, hx⟩)
    have own : e ∈ e.nodes := by
      rw [Expr.nodes_eq]
      exact List.mem_cons_self
    exact ⟨Expr.print_ne_empty (inner e own), Expr.isFlush_print inner⟩
  -- a statement starts with a token, or else with an expression
  cases s with
  | block i stmts =>
    cases stmts with
    | nil => exact token "\x7b\x7d" (by decide) ⟨_, rfl⟩
    | cons t ts => exact token "\x7b" (by decide) ⟨_, rfl⟩
  | ifElse => exact token "if (" (by decide) ⟨_, rfl⟩
  | whileLoop => exact token "while (" (by decide) ⟨_, rfl⟩
  | doLoop => exact token "do" (by decide) ⟨_, rfl⟩
  | forLoop => exact token "for (" (by decide) ⟨_, rfl⟩
  | forEach => exact token "for (" (by decide) ⟨_, rfl⟩
  | ret => exact token "return" (by decide) ⟨_, rfl⟩
  | raise => exact token "throw " (by decide) ⟨_, rfl⟩
  | synchronized => exact token "synchronized (" (by decide) ⟨_, rfl⟩
  | empty => exact token ";" (by decide) ⟨_, rfl⟩
  | expr i value => exact starts (operand List.mem_cons_self) ⟨_, rfl⟩
  | declare i decl =>
    cases final : decl.isFinal with
    | true => exact token "final " (by decide) ⟨_, by rw [pieces, VarDecl.pieces, final]; rfl⟩
    | false =>
      have type : StmtPart.expr decl.type ∈ (Stmt.declare i decl).children :=
        List.mem_map_of_mem List.mem_cons_self
      exact starts (operand type) ⟨_, by rw [parts, pieces, VarDecl.pieces, final]; rfl⟩

end JavaRefactor
