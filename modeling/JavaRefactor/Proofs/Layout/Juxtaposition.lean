import JavaRefactor.Proofs.Layout.LineStart

/-!
# Texts that run together

Where two pieces of text stand side by side they can read as something else.  The space after a
sign looks at the node of the operand only, so it keeps the sign apart from the same sign of an
operator, but the text of an operand also starts with a sign where its first operand is a negative
literal (`Expr.OpensWith`), as in `--1`.  Brackets behind an array creation read as one more of its
dimensions, as in `new int[3][0]`, and no parentheses are put around an array creation.  So a sign
is repeated exactly before such operands, and an access to an array creation is told from an array
creation exactly if the tree has parentheses there (`Expr.juxtaposition`).
-/

namespace JavaRefactor

open Layout

namespace Expr

/-! ### Signs -/

/-- The text of an expression starts with a sign: with that of a negative literal or of an operator,
or with that of its first operand, unless this is in parentheses.  A name can be any text, and
an operator can follow an operand that is printed as nothing. -/
inductive OpensWith (sign : Char) : Expr → Prop where
  | literal (i : NodeInfo) {value : Literal} : sign = '-' → value.isNegative = true →
      OpensWith sign (.literal i value)
  | name (i : NodeInfo) {name : String} (s : Option SymbolId) : name.toList.head? = some sign →
      OpensWith sign (.ident i name s)
  | signed (i : NodeInfo) {op : UnaryOperator} (operand : Expr) : op.sign? = some sign →
      OpensWith sign (.unary i op operand)
  | behind (i : NodeInfo) {op : UnaryOperator} {operand : Expr} : op.followsOperand = true →
      operand.charsAt op.precedence = [] → op.token.toList.head? = some sign →
      OpensWith sign (.unary i op operand)
  | operand {e x : Expr} {level : Nat} : e.left? = some (level, x) → x.precedence ≤ level →
      OpensWith sign x → OpensWith sign e

variable {sign : Char}

/-- What opens with a sign is printed with it in front. -/
theorem OpensWith.head_print {e : Expr} (h : sign = '+' ∨ sign = '-') (opens : e.OpensWith sign) :
    e.print.toList.head? = some sign := by
  induction opens with
  | @literal i value minus negative =>
    rw [print_literal]
    exact (value.head_text_iff h).mpr ⟨minus, negative⟩
  | name i s first =>
    rw [print_ident]
    exact first
  | signed i operand hop =>
    obtain ⟨cs, print⟩ := toList_print_of_leadingSign (e := .unary i _ operand) hop
    rw [print]
    rfl
  | behind i follows empty token =>
    rw [print_unary_of_followsOperand i follows, empty]
    exact token
  | @operand e x level left fits _ ih =>
    obtain ⟨c, more, print, -⟩ := exists_print_eq_of_left? left
    rw [print, charsAt_of_le fits]
    cases chars : x.print.toList with
    | nil => exact absurd ih (by simp [chars])
    | cons d ds =>
      rw [chars] at ih
      exact ih

/-- Every first character that is a sign comes from a negative literal, an operator or a name. -/
theorem opensWith_of_head_print (h : sign = '+' ∨ sign = '-') {e : Expr}
    (first : e.print.toList.head? = some sign) : e.OpensWith sign := by
  have noParen : sign ≠ '(' := by
    rintro rfl
    exact absurd h (by decide)
  induction e using Expr.induction with
  | step e ih =>
    cases leftmost : e.left? with
    | some place =>
      obtain ⟨level, x⟩ := place
      obtain ⟨c, more, print, after⟩ := exists_print_eq_of_left? leftmost
      rw [print] at first
      by_cases fits : x.precedence ≤ level
      · cases chars : x.charsAt level with
        | cons d ds =>
          rw [chars] at first
          rw [charsAt_of_le fits] at chars
          refine .operand leftmost fits (ih x (mem_children_of_left? leftmost) ?_)
          rw [chars]
          exact first
        -- an operand printed as nothing leaves the first place to the token behind it
        | nil =>
          rw [chars] at first
          obtain rfl : c = sign := Option.some.inj first
          obtain ⟨i, op, rfl, follows, token⟩ := after h
          rw [left?, if_pos follows] at leftmost
          obtain ⟨rfl, -⟩ := Prod.mk.inj (Option.some.inj leftmost)
          exact .behind i follows chars token
      · rw [charsAt_of_lt (Nat.lt_of_not_le fits)] at first
        exact absurd (Option.some.inj first).symm noParen
    | none =>
      rcases form_of_left?_eq_none leftmost with
        ⟨i, value, rfl⟩ | ⟨i, name, s, rfl⟩ | ⟨i, op, operand, rfl, follows⟩ | plain
      · rw [print_literal] at first
        obtain ⟨minus, negative⟩ := (value.head_text_iff h).mp first
        exact .literal i minus negative
      · rw [print_ident] at first
        exact .name i s first
      · obtain ⟨c, cs, token, -, -, signed⟩ := UnaryOperator.token_start follows
        rw [print_unary i follows, token] at first
        obtain rfl : c = sign := Option.some.inj first
        exact .signed i operand (signed h)
      · rw [StartsWith, first] at plain
        rcases h with rfl | rfl
        · exact absurd plain (by decide)
        · exact absurd plain (by decide)

/-- An expression is printed with a sign in front exactly if it opens with it. -/
theorem head_print_iff (h : sign = '+' ∨ sign = '-') (e : Expr) :
    e.print.toList.head? = some sign ↔ e.OpensWith sign :=
  ⟨opensWith_of_head_print h, OpensWith.head_print h⟩

/-- The sign of an operator is repeated exactly if its operand opens with it, without being an
operator with that sign. -/
theorem signs_print_iff (i : NodeInfo) {op : UnaryOperator} (hop : op.sign? = some sign)
    (e : Expr) : op.token.toList ++ [sign] <+: (unary i op e).print.toList ↔
      e.precedence ≤ op.precedence ∧ e.leadingSign? ≠ some sign ∧ e.OpensWith sign := by
  obtain ⟨signs, follows, -⟩ := UnaryOperator.sign?_eq_some hop
  have starts (cs : List Char) : [sign] <+: cs ↔ cs.head? = some sign := by
    cases cs with
    | nil => simp
    | cons c cs => simp [List.cons_prefix_cons, eq_comm]
  rw [print_unary i follows, List.prefix_append_right_inj, starts]
  by_cases spaced : e.leadingSign? = some sign
  · have gap : signGap op e = [.text " "] := by
      rw [signGap_eq_leadingSign, hop, spaced, if_pos (by simp)]
    refine iff_of_false ?_ fun h => h.2.1 spaced
    rw [gap]
    rintro first
    obtain rfl : ' ' = sign := Option.some.inj first
    exact absurd signs (by decide)
  · have gap : signGap op e = [] := by
      have other : (some sign == e.leadingSign?) = false :=
        beq_eq_false_iff_ne.mpr fun same => spaced same.symm
      rw [signGap_eq_leadingSign, hop, other, Bool.and_false, if_neg Bool.false_ne_true]
    rw [gap, and_iff_right spaced]
    show (e.charsAt op.precedence).head? = some sign ↔ _
    by_cases fits : e.precedence ≤ op.precedence
    · rw [charsAt_of_le fits, and_iff_right fits]
      exact head_print_iff signs e
    · rw [charsAt_of_lt (Nat.lt_of_not_le fits)]
      refine iff_of_false ?_ fun h => fits h.1
      rintro first
      obtain rfl : '(' = sign := Option.some.inj first
      exact absurd signs (by decide)

/-! ### Brackets -/

/-- One more dimension is written in brackets behind the others. -/
theorem toList_layoutDims_append (dims : List Expr) (e : Expr) :
    (textOf (layoutDims none (dims ++ [e]))).toList
      = (textOf (layoutDims none dims)).toList ++ '[' :: (e.print.toList ++ [']']) := by
  induction dims with
  | nil => simp [layoutDims, textOf, toText, print]
  | cons d dims ih => simp [layoutDims, textOf, toText, ih]

/-- An access to an array creation is printed as an array creation with one more dimension. -/
theorem print_index_newArray (i j : NodeInfo) (element : Option Expr) (dims : List Expr)
    (e : Expr) : (index i (newArray j element dims none) e).print
      = (newArray j element (dims ++ [e]) none).print := by
  have fits : (newArray j element dims none).precedence ≤ 0 := Nat.le_refl 0
  rw [← String.toList_inj, print_index, charsAt_of_le fits]
  cases element with
  | none => simp [print, layout, layoutInit, toText, toList_layoutDims_append]
  | some element => simp [print, layout, layoutInit, toText, textOf, toList_layoutDims_append]

/-- An access to something in parentheses is no array creation. -/
theorem print_index_paren_ne (i j k : NodeInfo) (inner e : Expr) (element : Option Expr)
    (dims : List Expr) (init : Option (List Expr)) :
    (index i (paren j inner) e).print ≠ (newArray k element dims init).print := by
  intro same
  have opens := startsWith_newArray k element dims init
  have fits : (paren j inner).precedence ≤ 0 := Nat.le_refl 0
  rw [← same, StartsWith, print_index, charsAt_of_le fits, print_paren] at opens
  exact absurd opens Bool.false_ne_true

/-- A prefix operator made of signs is followed by its sign once more exactly if its operand stands
there without parentheses and opens with that sign, without being an operator that a space is
written for; and the text of an access to an array creation without initializer differs from that of
every array creation exactly if the array creation is in parentheses. -/
theorem juxtaposition (i : NodeInfo) (e : Expr) :
    (∀ (op : UnaryOperator) (sign : Char), op.sign? = some sign →
      (op.token.toList ++ [sign] <+: (unary i op e).print.toList ↔
        e.precedence ≤ op.precedence ∧ e.leadingSign? ≠ some sign ∧ e.OpensWith sign)) ∧
    ∀ (j : NodeInfo) (element : Option Expr) (dims : List Expr) (n : Nat),
      (∀ k element' dims' init', (index i ((newArray j element dims none).inParens n) e).print
        ≠ (newArray k element' dims' init').print) ↔ n ≠ 0 := by
  refine ⟨fun op sign hop => signs_print_iff i hop e, fun j element dims n => ?_⟩
  cases n with
  | zero =>
    refine iff_of_false (fun differs => ?_) fun h => h rfl
    exact differs j element (dims ++ [e]) none (print_index_newArray i j element dims e)
  | succ n =>
    refine iff_of_true (fun _ _ _ _ => ?_) (Nat.succ_ne_zero n)
    exact print_index_paren_ne _ _ _ _ _ _ _ _

/-- A number in a tree. -/
def intLiteral (value : Int) : Expr := literal (.ofType (.primitive .int)) (.int value)

/-- The creation of an array of numbers. -/
def newInts (dims : List Expr) : Expr :=
  newArray (.ofType .unknown) (some (primitiveType (.ofType .unknown) .int)) dims none

/-- A minus before a member of the literal `-1` is printed as two signs. -/
theorem juxtaposition_select :
    UnaryOperator.minus.sign? = some '-' ∧
      ['-', '-'] <+: (unary (.ofType .unknown) .minus
        (select (.ofType .unknown) (intLiteral (-1)) "x" none)).print.toList :=
  ⟨rfl, ((juxtaposition _ _).1 .minus '-' rfl).mpr
    ⟨by decide, by decide, .operand rfl (by decide) (.literal _ rfl rfl)⟩⟩

/-- A minus before the literal `-1` is printed as a decrement, and an element of a new array as a
new array of two dimensions. -/
theorem juxtaposition_collides :
    UnaryOperator.minus.token.toList ++ ['-'] <+:
        (unary (.ofType (.primitive .int)) .minus (intLiteral (-1))).print.toList ∧
      (index (.ofType (.primitive .int)) (newInts [intLiteral 3]) (intLiteral 0)).print
        = (newInts [intLiteral 3, intLiteral 0]).print := by
  decide +kernel

end Expr

end JavaRefactor
