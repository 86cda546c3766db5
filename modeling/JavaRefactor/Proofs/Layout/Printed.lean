import JavaRefactor.Proofs.Layout.Reading
import JavaRefactor.Proofs.Token.Replacement

/-!
# What operator expressions are printed as

Expressions that are built with operators are printed as a sequence of characters in which each
operand stands in a place of its own, in parentheses if it binds too loosely for it.  A number, a
keyword or a name is a word (`Expr.PrintsWord`).  The first character of an expression belongs to
its first operand, so it is a sign only if an operator with that sign stands there without
parentheses (`Expr.IsOperatorTree.opens`); a space keeps such a sign apart from the same sign
before it.
-/

namespace JavaRefactor

open Layout Reader

/-! ### Operator expressions -/

/-- A name is an identifier that is no keyword; `this` and the boolean literals are the only
keywords that stand for an operand of their own. -/
structure IsName (name : String) : Prop where
  chars : ∀ c ∈ name.toList, isIdentifierChar c = true
  first : ∃ c cs, name.toList = c :: cs ∧ c.isDigit = false
  noKeyword : name ≠ "this" ∧ name ≠ "true" ∧ name ≠ "false"

namespace Expr

/-- Expressions that are built with operators from names, numbers, boolean literals, `this`,
members, calls and array accesses. -/
inductive IsOperatorTree : Expr → Prop where
  | int (i : NodeInfo) (n : Nat) : IsOperatorTree (.literal i (.int n))
  | bool (i : NodeInfo) (value : Bool) : IsOperatorTree (.literal i (.bool value))
  | ident (i : NodeInfo) {name : String} (hname : IsName name) (s : Option SymbolId) :
      IsOperatorTree (.ident i name s)
  | this (i : NodeInfo) : IsOperatorTree (.this i)
  | select (i : NodeInfo) {receiver : Expr} {name : String} (h : IsOperatorTree receiver)
      (hname : IsName name) (s : Option SymbolId) : IsOperatorTree (.select i receiver name s)
  | call (i : NodeInfo) {callee : Expr} {args : List Expr} (h : IsOperatorTree callee)
      (hargs : ∀ a ∈ args, IsOperatorTree a) : IsOperatorTree (.call i callee args)
  | index (i : NodeInfo) {array position : Expr} (h : IsOperatorTree array)
      (hposition : IsOperatorTree position) : IsOperatorTree (.index i array position)
  | paren (i : NodeInfo) {inner : Expr} (h : IsOperatorTree inner) :
      IsOperatorTree (.paren i inner)
  | unary (i : NodeInfo) (op : UnaryOperator) {operand : Expr} (h : IsOperatorTree operand) :
      IsOperatorTree (.unary i op operand)
  | binary (i : NodeInfo) (op : BinaryOperator) {left right : Expr} (h : IsOperatorTree left)
      (hright : IsOperatorTree right) : IsOperatorTree (.binary i op left right)
  | instanceOf (i j : NodeInfo) {operand : Expr} {name : String} (h : IsOperatorTree operand)
      (hname : IsName name) (s : Option SymbolId) :
      IsOperatorTree (.instanceOf i operand (.ident j name s))
  | conditional (i : NodeInfo) {cond yes no : Expr} (h : IsOperatorTree cond)
      (hyes : IsOperatorTree yes) (hno : IsOperatorTree no) :
      IsOperatorTree (.conditional i cond yes no)
  | assign (i : NodeInfo) {target value : Expr} (h : IsOperatorTree target)
      (hvalue : IsOperatorTree value) : IsOperatorTree (.assign i target value)
  | compoundAssign (i : NodeInfo) {op : BinaryOperator} (hop : op ∈ Connector.compoundOperators)
      {target value : Expr} (h : IsOperatorTree target) (hvalue : IsOperatorTree value) :
      IsOperatorTree (.compoundAssign i op target value)

/-! ### Printed characters -/

/-- The characters of an expression at a place of some level. -/
def charsAt (level : Nat) (e : Expr) : List Char :=
  (textOf (encloseAt level e (e.layout none))).toList

/-- An expression that binds tightly enough for its place is printed bare. -/
theorem charsAt_of_le {level : Nat} {e : Expr} (h : e.precedence ≤ level) :
    e.charsAt level = e.print.toList := by
  rw [charsAt, textOf_encloseAt, if_neg (Nat.not_lt.mpr h)]

/-- An expression that binds more loosely than its place stands in parentheses. -/
theorem charsAt_of_lt {level : Nat} {e : Expr} (h : level < e.precedence) :
    e.charsAt level = '(' :: (e.print.toList ++ [')']) := by
  rw [charsAt, textOf_encloseAt, if_pos h, String.toList_append, String.toList_append]
  rfl

/-- Where the loosest expressions may stand, none has parentheses. -/
@[simp] theorem charsAt_assignLevel (e : Expr) : e.charsAt assignLevel = e.print.toList :=
  charsAt_of_le e.precedence_le_assignLevel

/-- The characters of arguments. -/
def argsChars : List Expr → List Char
  | [] => []
  | [e] => e.print.toList
  | e :: e' :: es => e.print.toList ++ ',' :: ' ' :: argsChars (e' :: es)

/-- The layout of arguments has the characters of the arguments. -/
theorem toList_separated_layoutArgs (args : List Expr) :
    (textOf (separated ", " (layoutArgs none args))).toList = argsChars args := by
  induction args using argsChars.induct with
  | case1 => rfl
  | case2 e => simp [layoutArgs, separated, argsChars, textOf, print]
  | case3 e e' es ih =>
    rw [argsChars, ← ih]
    simp [layoutArgs, separated, textOf, toText, print]

section

variable (i : NodeInfo)

/-- The characters of a member selection. -/
theorem print_select (receiver : Expr) (name : String) (s : Option SymbolId) :
    (select i receiver name s).print.toList = receiver.charsAt 0 ++ '.' :: name.toList := by
  simp [print, layout, charsAt, toText, textOf]

/-- The characters of an element of an array. -/
theorem print_index (array position : Expr) :
    (index i array position).print.toList
      = array.charsAt 0 ++ '[' :: (position.print.toList ++ [']']) := by
  simp [print, layout, charsAt, toText, textOf]

/-- The characters of an expression in parentheses. -/
theorem print_paren (inner : Expr) :
    (paren i inner).print.toList = '(' :: (inner.print.toList ++ [')']) := by
  simp [print, layout, toText, textOf]

/-- The characters of a call. -/
theorem print_call (callee : Expr) (args : List Expr) :
    (call i callee args).print.toList = callee.charsAt 0 ++ '(' :: (argsChars args ++ [')']) := by
  simp [print, layout, charsAt, toText, textOf, within, toList_separated_layoutArgs]

/-- The characters of a unary operation whose operator comes first. -/
theorem print_unary {op : UnaryOperator} (h : op.followsOperand = false) (operand : Expr) :
    (unary i op operand).print.toList
      = op.token.toList
        ++ ((textOf (signGap op operand)).toList ++ operand.charsAt op.precedence) := by
  simp [print, layout, charsAt, toText, textOf, h]

/-- The characters of a unary operation whose operator comes last. -/
theorem print_unary_of_followsOperand {op : UnaryOperator} (h : op.followsOperand = true)
    (operand : Expr) :
    (unary i op operand).print.toList = operand.charsAt op.precedence ++ op.token.toList := by
  simp [print, layout, charsAt, toText, textOf, h]

/-- The characters of a binary operation. -/
theorem print_binary (op : BinaryOperator) (left right : Expr) :
    (binary i op left right).print.toList
      = left.charsAt op.precedence
        ++ ' ' :: (op.token.toList ++ ' ' :: right.charsAt (op.precedence - 1)) := by
  simp [print, layout, charsAt, toText, textOf]

/-- The characters of a conditional. -/
theorem print_conditional (cond yes no : Expr) :
    (conditional i cond yes no).print.toList
      = cond.charsAt (conditionalLevel - 1)
        ++ ' ' :: '?' :: ' ' :: (yes.charsAt conditionalLevel
          ++ ' ' :: ':' :: ' ' :: no.charsAt conditionalLevel) := by
  simp [print, layout, charsAt, toText, textOf]

/-- The characters of a type test. -/
theorem print_instanceOf (operand type : Expr) :
    (instanceOf i operand type).print.toList
      = operand.charsAt 6
        ++ ' ' :: ("instanceof".toList ++ ' ' :: type.print.toList) := by
  simp [print, layout, charsAt, toText, textOf]

/-- The characters of an assignment. -/
theorem print_assign (target value : Expr) :
    (assign i target value).print.toList
      = target.charsAt 1 ++ ' ' :: '=' :: ' ' :: value.print.toList := by
  simp [print, layout, charsAt, toText, textOf]

/-- The characters of a compound assignment. -/
theorem print_compoundAssign (op : BinaryOperator) (target value : Expr) :
    (compoundAssign i op target value).print.toList
      = target.charsAt 1 ++ ' ' :: (op.token.toList ++ '=' :: ' ' :: value.print.toList) := by
  simp [print, layout, charsAt, toText, textOf]

/-- The characters of a type with arguments. -/
theorem print_typeApply (base : Expr) (args : List Expr) :
    (typeApply i base args).print.toList
      = base.charsAt assignLevel ++ '<' :: (argsChars args ++ ['>']) := by
  simp [print, layout, toText, textOf, within, toList_separated_layoutArgs]

/-- The characters of an array type. -/
theorem print_arrayType (element : Expr) :
    (arrayType i element).print.toList = element.charsAt assignLevel ++ '[' :: [']'] := by
  simp [print, layout, toText, textOf]

end

end Expr

/-- What stands before an operand starts with a sign only if this is the one to keep apart. -/
theorem UnaryOperator.token_start {op : UnaryOperator} (h : op.followsOperand = false) :
    ∃ c cs, op.token.toList = c :: cs ∧ c ≠ ' ' ∧ c ≠ ')' ∧
      (c = '+' ∨ c = '-' → op.sign? = some c) := by
  cases op with
  | postIncrement | postDecrement => cases h
  | _ => exact ⟨_, _, rfl, by decide, by decide, by decide⟩

/-- The reader takes a name for an identifier. -/
theorem Reader.ofWord_name {name : String} (h : IsName name) :
    ofWord name.toList = .ident .bare name none := by
  obtain ⟨c, cs, hcs, letter⟩ := h.first
  obtain ⟨noThis, noTrue, noFalse⟩ := h.noKeyword
  have noDigit : ¬name.toList.head?.any Char.isDigit = true := by simp [hcs, letter]
  rw [ofWord, if_neg noDigit, if_neg, if_neg, if_neg, String.ofList_toList]
  all_goals
    rw [String.toList_inj]
    assumption

namespace Expr

/-! ### Words -/

/-- An expression is printed as a word that the reader takes for it. -/
structure PrintsWord (e : Expr) (word : List Char) : Prop where
  print : e.print.toList = word
  chars : ∀ c ∈ word, isIdentifierChar c = true
  nonempty : word ≠ []
  means : ofWord word = e.bare

/-- A literal is printed as its text. -/
theorem print_literal (i : NodeInfo) (value : Literal) : (literal i value).print = value.text := by
  simp [print, layout, toText, textOf]

/-- An integer is printed as the word of its digits. -/
theorem printsWord_int (i : NodeInfo) (n : Nat) :
    (literal i (.int n)).PrintsWord (Nat.toDigits 10 n) := by
  refine ⟨?_, ?_, Nat.toDigits_ne_nil, ?_⟩
  · rw [print_literal]
    exact Nat.toList_repr
  · intro c hc
    exact isIdentifierChar_of_isDigit (Nat.isDigit_of_mem_toDigits (by decide) (by decide) hc)
  · rw [ofWord_digits, bare_literal]

/-- A boolean is printed as its keyword. -/
theorem printsWord_bool (i : NodeInfo) (value : Bool) :
    (literal i (.bool value)).PrintsWord (Literal.text (.bool value)).toList := by
  cases value with
  | true =>
    exact ⟨congrArg String.toList (print_literal i _), List.all_eq_true.mp (by decide), by decide,
      by simp; rfl⟩
  | false =>
    exact ⟨congrArg String.toList (print_literal i _), List.all_eq_true.mp (by decide), by decide,
      by simp; rfl⟩

/-- An identifier is printed as its name. -/
theorem printsWord_ident (i : NodeInfo) {name : String} (h : IsName name) (s : Option SymbolId) :
    (ident i name s).PrintsWord name.toList := by
  obtain ⟨c, cs, hcs, -⟩ := h.first
  refine ⟨?_, h.chars, by simp [hcs], ?_⟩
  · simp [print, layout, toText, textOf]
  · rw [ofWord_name h, bare_ident]

/-- `this` is printed as the keyword. -/
theorem printsWord_this (i : NodeInfo) : (this i).PrintsWord "this".toList := by
  refine ⟨?_, List.all_eq_true.mp (by decide), by decide, ?_⟩
  · simp [print, layout, toText, textOf]
  · rw [bare_this]
    rfl

/-! ### First characters -/

/-- A character that can be the first one of an expression in a place: none that stands before
or after one, and a sign only if it is that of the outermost operator. -/
structure Starts (e : Expr) (place : Nat) (c : Char) : Prop where
  noBlank : c ≠ ' '
  noParen : c ≠ ')'
  sign : place ≤ 2 → c = '+' ∨ c = '-' → e.precedence ≤ place ∧ e.leadingSign? = some c

/-- What is printed for an expression starts well. -/
def Opens (e : Expr) : Prop :=
  ∃ c cs, e.print.toList = c :: cs ∧ c ≠ ' ' ∧ c ≠ ')' ∧
    (e.precedence ≤ 2 → c = '+' ∨ c = '-' → e.leadingSign? = some c)

namespace Opens

variable {e left : Expr}

/-- An expression that starts well does so at every place, in parentheses or not. -/
theorem starts (h : e.Opens) (place : Nat) :
    ∃ c cs, e.charsAt place = c :: cs ∧ e.Starts place c := by
  by_cases fits : e.precedence ≤ place
  · obtain ⟨c, cs, print, noBlank, noParen, sign⟩ := h
    refine ⟨c, cs, (charsAt_of_le fits).trans print, noBlank, noParen, ?_⟩
    intro tight isSign
    exact ⟨fits, sign (fits.trans tight) isSign⟩
  · refine ⟨'(', _, charsAt_of_lt (Nat.lt_of_not_le fits), by decide, by decide, ?_⟩
    intro _ isSign
    exact absurd isSign (by decide)

/-- What is printed as a word starts well. -/
theorem of_word {word : List Char} (h : e.PrintsWord word) : e.Opens := by
  obtain ⟨c, cs, rfl⟩ := List.exists_cons_of_ne_nil h.nonempty
  have first : isIdentifierChar c = true := h.chars c List.mem_cons_self
  refine ⟨c, cs, h.print, ?_, ?_, ?_⟩
  · rintro rfl
    exact absurd first (by decide)
  · rintro rfl
    exact absurd first (by decide)
  · rintro - (rfl | rfl)
    · exact absurd first (by decide)
    · exact absurd first (by decide)

/-- An expression starts with its first operand. -/
theorem of_left (h : left.Opens) {place : Nat} {more : List Char}
    (print : e.print.toList = left.charsAt place ++ more)
    (place_le : place ≤ 1 ∨ 2 < e.precedence) : e.Opens := by
  obtain ⟨c, cs, chars, starts⟩ := h.starts place
  rw [chars] at print
  refine ⟨c, cs ++ more, print, starts.noBlank, starts.noParen, ?_⟩
  intro tight isSign
  have place_le : place ≤ 1 := place_le.resolve_right (Nat.not_lt.mpr tight)
  obtain ⟨fits, sign⟩ := starts.sign (place_le.trans (by decide)) isSign
  obtain ⟨i, op, operand, rfl, hop⟩ := leadingSign?_eq_some sign
  obtain ⟨-, follows, -⟩ := UnaryOperator.sign?_eq_some hop
  rw [precedence, UnaryOperator.precedence, follows, if_neg Bool.false_ne_true] at fits
  omega

end Opens

/-- What is printed for an expression that is built with operators starts well. -/
theorem IsOperatorTree.opens {e : Expr} (h : e.IsOperatorTree) : e.Opens := by
  induction h with
  | int i n => exact .of_word (printsWord_int i n)
  | bool i value => exact .of_word (printsWord_bool i value)
  | ident i hname s => exact .of_word (printsWord_ident i hname s)
  | this i => exact .of_word (printsWord_this i)
  | select i _ _ s ih => exact ih.of_left (print_select ..) (.inl (by decide))
  | call i _ _ ih _ => exact ih.of_left (print_call ..) (.inl (by decide))
  | index i _ _ ih _ => exact ih.of_left (print_index ..) (.inl (by decide))
  | paren i _ _ =>
    exact ⟨'(', _, print_paren .., by decide, by decide, fun _ sign => absurd sign (by decide)⟩
  | @unary i op operand _ ih =>
    cases follows : op.followsOperand with
    | true =>
      refine ih.of_left (print_unary_of_followsOperand i follows _) (.inl ?_)
      simp [UnaryOperator.precedence, follows]
    | false =>
      obtain ⟨c, cs, token, noBlank, noParen, sign⟩ := UnaryOperator.token_start follows
      have print := print_unary i follows operand
      rw [token, List.cons_append] at print
      exact ⟨c, _, print, noBlank, noParen, fun _ => sign⟩
  | binary i op _ _ ih _ => exact ih.of_left (print_binary ..) (.inr op.precedence_bounds.1)
  | instanceOf i j _ _ s ih => exact ih.of_left (print_instanceOf ..) (.inr (by simp [precedence]))
  | conditional i _ _ _ ih _ _ =>
    exact ih.of_left (print_conditional ..) (.inr (by simp [precedence, conditionalLevel]))
  | assign i _ _ ih _ =>
    exact ih.of_left (print_assign ..) (.inr (by simp [precedence, assignLevel]))
  | compoundAssign i _ _ _ ih _ =>
    exact ih.of_left (print_compoundAssign ..) (.inr (by simp [precedence, assignLevel]))

end Expr

end JavaRefactor
