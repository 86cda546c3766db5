import JavaRefactor.Layout.Expr
import JavaRefactor.Tree.Rebuild

/-!
# Reading operator expressions

A reader for what is printed of expressions that are built from operators (`Reader.Phrase.read`).
It goes through the text once: an operand is a word, an expression in parentheses, or an operator
before another operand, and after an operand the reader goes on as long as what follows binds at
least as tightly as the level that it reads at.  The reader takes the blanks of printed text to be
where the printer puts them, and forgets parentheses and what nodes carry (`Expr.bare`).
-/

namespace JavaRefactor

/-! ### Bare expressions -/

/-- The data of a node that carries nothing. -/
def NodeInfo.bare : NodeInfo := .ofType .unknown

namespace Expr

/-- The node without what it carries and without its symbol. -/
def bareNode : Expr → Expr
  | ident _ name _ => ident .bare name none
  | select _ receiver name _ => select .bare receiver name none
  | e => e.withInfo .bare

/-- The expression without its parentheses, types, spans and symbols. -/
def bare (e : Expr) : Expr :=
  match e with
  | paren _ inner => inner.bare
  | e => e.bareNode.withChildren (e.children.attach.map fun c => bare c.1)
termination_by sizeOf e
decreasing_by
  · rw [paren.sizeOf_spec]
    omega
  · exact sizeOf_lt_of_mem_children c.2

/-- Apart from parentheses, what an expression carries is left out node by node. -/
theorem bare_eq {e : Expr} (h : ∀ i inner, e ≠ paren i inner) :
    e.bare = e.bareNode.withChildren (e.children.map bare) := by
  rw [bare]
  · rw [List.map_attach_eq_pmap, List.pmap_eq_map]
  · exact h

/-- Parentheses are left out. -/
@[simp] theorem bare_paren (i : NodeInfo) (inner : Expr) : (paren i inner).bare = inner.bare := by
  rw [bare]

/-- A literal keeps its value. -/
@[simp] theorem bare_literal (i : NodeInfo) (value : Literal) :
    (literal i value).bare = literal .bare value :=
  bare_eq fun _ _ => Expr.noConfusion

/-- An identifier keeps its name. -/
@[simp] theorem bare_ident (i : NodeInfo) (name : String) (s : Option SymbolId) :
    (ident i name s).bare = ident .bare name none :=
  bare_eq fun _ _ => Expr.noConfusion

/-- Nothing is left of `this` but the keyword. -/
@[simp] theorem bare_this (i : NodeInfo) : (this i).bare = this .bare :=
  bare_eq fun _ _ => Expr.noConfusion

/-- A member selection keeps the receiver, bare, and the name. -/
@[simp] theorem bare_select (i : NodeInfo) (receiver : Expr) (name : String)
    (s : Option SymbolId) :
    (select i receiver name s).bare = select .bare receiver.bare name none :=
  bare_eq fun _ _ => Expr.noConfusion

/-- A call keeps the callee and the arguments, all bare. -/
@[simp] theorem bare_call (i : NodeInfo) (callee : Expr) (args : List Expr) :
    (call i callee args).bare = call .bare callee.bare (args.map bare) :=
  bare_eq fun _ _ => Expr.noConfusion

/-- An element of an array keeps the array and the position, both bare. -/
@[simp] theorem bare_index (i : NodeInfo) (array position : Expr) :
    (index i array position).bare = index .bare array.bare position.bare :=
  bare_eq fun _ _ => Expr.noConfusion

/-- A unary operation keeps the operator and the operand, bare. -/
@[simp] theorem bare_unary (i : NodeInfo) (op : UnaryOperator) (operand : Expr) :
    (unary i op operand).bare = unary .bare op operand.bare :=
  bare_eq fun _ _ => Expr.noConfusion

/-- A binary operation keeps the operator and the operands, both bare. -/
@[simp] theorem bare_binary (i : NodeInfo) (op : BinaryOperator) (left right : Expr) :
    (binary i op left right).bare = binary .bare op left.bare right.bare :=
  bare_eq fun _ _ => Expr.noConfusion

/-- A type test keeps the operand and the type, both bare. -/
@[simp] theorem bare_instanceOf (i : NodeInfo) (operand type : Expr) :
    (instanceOf i operand type).bare = instanceOf .bare operand.bare type.bare :=
  bare_eq fun _ _ => Expr.noConfusion

/-- A conditional keeps the condition and the branches, all bare. -/
@[simp] theorem bare_conditional (i : NodeInfo) (cond yes no : Expr) :
    (conditional i cond yes no).bare = conditional .bare cond.bare yes.bare no.bare :=
  bare_eq fun _ _ => Expr.noConfusion

/-- An assignment keeps the target and the value, both bare. -/
@[simp] theorem bare_assign (i : NodeInfo) (target value : Expr) :
    (assign i target value).bare = assign .bare target.bare value.bare :=
  bare_eq fun _ _ => Expr.noConfusion

/-- A compound assignment keeps the operator, the target and the value, the two bare. -/
@[simp] theorem bare_compoundAssign (i : NodeInfo) (op : BinaryOperator) (target value : Expr) :
    (compoundAssign i op target value).bare = compoundAssign .bare op target.bare value.bare :=
  bare_eq fun _ _ => Expr.noConfusion

end Expr

/-- Binary operators bind more loosely than unary ones and more tightly than conditionals. -/
theorem BinaryOperator.precedence_bounds (op : BinaryOperator) :
    3 ≤ op.precedence ∧ op.precedence ≤ 12 := by
  cases op <;> decide

namespace Reader

/-! ### Words -/

/-- Whether a character can stand in an identifier.  Among the printable ASCII characters only
letters, digits, `_` and `$` can. -/
def isIdentifierChar (c : Char) : Bool :=
  c.isAlphanum || c == '_' || c == '$' || c.toNat < 32 || 127 ≤ c.toNat

/-- The expression that a word stands for: a number, a keyword or an identifier. -/
def ofWord (word : List Char) : Expr :=
  if word.head?.any Char.isDigit then .literal .bare (.int (Nat.ofDigitChars 10 word 0))
  else if word = "this".toList then .this .bare
  else if word = "true".toList then .literal .bare (.bool true)
  else if word = "false".toList then .literal .bare (.bool false)
  else .ident .bare (String.ofList word) none

/-! ### Operators -/

/-- An operator that stands between blanks after its first operand. -/
inductive Connector where
  | binary (op : BinaryOperator)
  | instanceOf
  | conditional
  | assign
  | compoundAssign (op : BinaryOperator)
  deriving DecidableEq

namespace Connector

/-- The operators of compound assignments. -/
def compoundOperators : List BinaryOperator :=
  [.add, .sub, .mul, .div, .mod, .bitAnd, .bitOr, .bitXor, .shiftLeft, .shiftRight,
    .shiftRightUnsigned]

/-- All connectors. -/
def all : List Connector :=
  BinaryOperator.all.map binary ++ [instanceOf, conditional, assign]
    ++ compoundOperators.map compoundAssign

/-- The token in source text. -/
def token : Connector → String
  | binary op => op.token
  | instanceOf => "instanceof"
  | conditional => "?"
  | assign => "="
  | compoundAssign op => op.token ++ "="

/-- The connector that a token stands for. -/
def ofToken? (token : List Char) : Option Connector := all.find? fun c => c.token.toList == token

/-- The binding level. -/
def level : Connector → Nat
  | binary op => op.precedence
  | instanceOf => 6
  | conditional => Expr.conditionalLevel
  | assign | compoundAssign _ => Expr.assignLevel

end Connector

/-! ### What comes next -/

/-- What an operand starts with. -/
inductive Opening where
  | paren
  | unary (op : UnaryOperator)
  | word (cs : List Char)

/-- What an expression goes on with after an operand. -/
inductive Following where
  | member (name : List Char)
  | arguments
  | position
  | unary (op : UnaryOperator)
  | connector (c : Connector)

/-- The text without a leading blank. -/
def skipBlank : List Char → List Char
  | ' ' :: cs => cs
  | cs => cs

/-- What the operand at the front of a text starts with, and the text after that. -/
def opening? : List Char → Option (Opening × List Char)
  | '(' :: cs => some (.paren, cs)
  | '+' :: '+' :: cs => some (.unary .preIncrement, skipBlank cs)
  | '-' :: '-' :: cs => some (.unary .preDecrement, skipBlank cs)
  | '+' :: cs => some (.unary .plus, skipBlank cs)
  | '-' :: cs => some (.unary .minus, skipBlank cs)
  | '~' :: cs => some (.unary .bitNot, skipBlank cs)
  | '!' :: cs => some (.unary .not, skipBlank cs)
  | c :: cs =>
    if isIdentifierChar c then
      some (.word (c :: cs.takeWhile isIdentifierChar), cs.dropWhile isIdentifierChar)
    else none
  | [] => none

/-- What follows an operand, and the text after that. -/
def following? : List Char → Option (Following × List Char)
  | '.' :: cs => some (.member (cs.takeWhile isIdentifierChar), cs.dropWhile isIdentifierChar)
  | '(' :: cs => some (.arguments, cs)
  | '[' :: cs => some (.position, cs)
  | '+' :: '+' :: cs => some (.unary .postIncrement, cs)
  | '-' :: '-' :: cs => some (.unary .postDecrement, cs)
  | ' ' :: cs =>
    (Connector.ofToken? (cs.takeWhile (· != ' '))).map fun c =>
      (.connector c, (cs.dropWhile (· != ' ')).tail)
  | _ => none

/-! ### The reader -/

/-- What can be read at the front of a text. -/
inductive Phrase where
  /-- An expression that binds at least as tightly as some level. -/
  | expr (level : Nat)
  /-- What such an expression goes on with after an operand. -/
  | after (level : Nat) (e : Expr)
  /-- The operands of a connector after its first one. -/
  | operands (c : Connector) (e : Expr)
  /-- The arguments of a call after those before, up to the closing parenthesis. -/
  | arguments (callee : Expr) (before : List Expr)

namespace Phrase

/-- The expression that a phrase at the front of a text completes, and the text after it. -/
def read (phrase : Phrase) (cs : List Char) : Option (Expr × List Char) :=
  match phrase with
  | expr level =>
    match opening? cs with
    | some (.paren, cs) => do
      let (e, cs) ← expr Expr.assignLevel |>.read cs
      match cs with
      | ')' :: cs => after level e |>.read cs
      | _ => none
    | some (.unary op, cs) => do
      let (e, cs) ← expr op.precedence |>.read cs
      after level (.unary .bare op e) |>.read cs
    | some (.word word, cs) => after level (ofWord word) |>.read cs
    | none => none
  | after level e =>
    match following? cs with
    | some (.member name, cs) => after level (.select .bare e (String.ofList name) none) |>.read cs
    | some (.arguments, cs) => do
      let (e, cs) ← arguments e [] |>.read cs
      after level e |>.read cs
    | some (.position, cs) => do
      let (position, cs) ← expr Expr.assignLevel |>.read cs
      match cs with
      | ']' :: cs => after level (.index .bare e position) |>.read cs
      | _ => none
    | some (.unary op, cs) => after level (.unary .bare op e) |>.read cs
    | some (.connector c, more) =>
      if level < c.level then some (e, cs)
      else do
        let (e, cs) ← operands c e |>.read more
        after level e |>.read cs
    | none => some (e, cs)
  | operands (.binary op) e => do
    let (right, cs) ← expr (op.precedence - 1) |>.read cs
    return (.binary .bare op e right, cs)
  | operands .instanceOf e =>
    match opening? cs with
    | some (.word word, cs) => some (.instanceOf .bare e (ofWord word), cs)
    | _ => none
  | operands .conditional e => do
    let (yes, cs) ← expr Expr.conditionalLevel |>.read cs
    match cs with
    | ' ' :: ':' :: ' ' :: cs => do
      let (no, cs) ← expr Expr.conditionalLevel |>.read cs
      return (.conditional .bare e yes no, cs)
    | _ => none
  | operands .assign e => do
    let (value, cs) ← expr Expr.assignLevel |>.read cs
    return (.assign .bare e value, cs)
  | operands (.compoundAssign op) e => do
    let (value, cs) ← expr Expr.assignLevel |>.read cs
    return (.compoundAssign .bare op e value, cs)
  | arguments callee before =>
    match cs with
    | ')' :: cs => some (.call .bare callee before, cs)
    | cs => do
      let (e, cs) ← expr Expr.assignLevel |>.read cs
      match cs with
      | ')' :: cs => return (.call .bare callee (before ++ [e]), cs)
      | ',' :: ' ' :: cs => arguments callee (before ++ [e]) |>.read cs
      | _ => none
partial_fixpoint

end Phrase

/-! ### Words in front of a text -/

/-- A text does not go on with a word. -/
def Ends (cs : List Char) : Prop := ∀ c ∈ cs.head?, isIdentifierChar c = false

/-- A character that cannot stand in an identifier ends a word. -/
theorem ends_cons {c : Char} (h : isIdentifierChar c = false) (cs : List Char) :
    Ends (c :: cs) := by
  rintro d ⟨⟩
  exact h

/-- A word is read up to where it ends. -/
theorem takeWhile_word {word rest : List Char} (h : ∀ c ∈ word, isIdentifierChar c = true)
    (ends : Ends rest) : (word ++ rest).takeWhile isIdentifierChar = word := by
  rw [List.takeWhile_append_of_pos h]
  cases rest with
  | nil => simp
  | cons c cs => rw [List.takeWhile_cons_of_neg (by simp [ends c rfl]), List.append_nil]

/-- Behind a word, the text goes on where the word ends. -/
theorem dropWhile_word {word rest : List Char} (h : ∀ c ∈ word, isIdentifierChar c = true)
    (ends : Ends rest) : (word ++ rest).dropWhile isIdentifierChar = rest := by
  rw [List.dropWhile_append_of_pos h]
  cases rest with
  | nil => rfl
  | cons c cs => rw [List.dropWhile_cons_of_neg (by simp [ends c rfl])]

/-- An operand that starts with a word is read as the word. -/
theorem opening?_word {word rest : List Char} (h : ∀ c ∈ word, isIdentifierChar c = true)
    (nonempty : word ≠ []) (ends : Ends rest) :
    opening? (word ++ rest) = some (.word word, rest) := by
  obtain ⟨c, cs, rfl⟩ := List.exists_cons_of_ne_nil nonempty
  have first : isIdentifierChar c = true := h c List.mem_cons_self
  have others : ∀ c ∈ cs, isIdentifierChar c = true := fun d hd => h d (List.mem_cons_of_mem c hd)
  rw [List.cons_append, opening?]
  · rw [if_pos first, takeWhile_word others ends, dropWhile_word others ends]
  -- None of the characters of operators stands in a word.
  all_goals
    intros
    subst c
    exact absurd first (by decide)

/-- The digits of a number are read as an integer. -/
theorem ofWord_digits (n : Nat) :
    ofWord (Nat.toDigits 10 n) = .literal .bare (.int n) := by
  obtain ⟨c, cs, hcs⟩ := List.exists_cons_of_ne_nil (Nat.toDigits_ne_nil (n := n) (b := 10))
  have digit : c.isDigit = true := by
    refine Nat.isDigit_of_mem_toDigits (b := 10) (n := n) (by decide) (by decide) ?_
    rw [hcs]
    exact List.mem_cons_self
  have starts : (Nat.toDigits 10 n).head?.any Char.isDigit = true := by simp [hcs, digit]
  rw [ofWord, if_pos starts, Nat.ofDigitChars_ten_toDigits]

/-- Digits can stand in identifiers. -/
theorem isIdentifierChar_of_isDigit {c : Char} (h : c.isDigit = true) :
    isIdentifierChar c = true := by
  simp [isIdentifierChar, Char.isAlphanum, h]

/-! ### Operators in front of a text -/

namespace Connector

/-- The loosest level that the first operand holds without parentheses. -/
def place : Connector → Nat
  | binary op => op.precedence
  | instanceOf => 6
  | conditional => Expr.conditionalLevel - 1
  | assign | compoundAssign _ => 1

/-- The first operand may bind as loosely as a binary operator, but more tightly than a looser
connector. -/
theorem place_bounds (c : Connector) :
    3 ≤ c.level ∧ c.level ≤ 12 ∧ c.place = c.level ∨ 13 ≤ c.level ∧ c.place ≤ 12 := by
  cases c with
  | binary op => exact .inl ⟨op.precedence_bounds.1, op.precedence_bounds.2, rfl⟩
  | instanceOf => exact .inl (by decide)
  | conditional | assign | compoundAssign op =>
    exact .inr (by simp [level, place, Expr.conditionalLevel, Expr.assignLevel])

/-- The first operand of a connector binds at least as tightly as the connector. -/
theorem place_le_level (c : Connector) : c.place ≤ c.level := by
  have := c.place_bounds
  omega

/-- The token of a connector stands for no other one. -/
theorem ofToken?_token {c : Connector} (h : c ∈ all) : ofToken? c.token.toList = some c := by
  have each : ∀ c ∈ all, ofToken? c.token.toList = some c := by decide +kernel
  exact each c h

/-- Tokens of connectors hold no blanks. -/
theorem no_blank_in_token {c : Connector} (h : c ∈ all) :
    ∀ d ∈ c.token.toList, (d != ' ') = true := by
  have each : (all.all fun c => c.token.toList.all (· != ' ')) = true := by decide +kernel
  exact List.all_eq_true.mp (List.all_eq_true.mp each c h)

/-- All binary operators are among the connectors. -/
theorem binary_mem_all (op : BinaryOperator) : binary op ∈ all := by
  cases op <;> decide

/-- So are the operators of compound assignments. -/
theorem compoundAssign_mem_all {op : BinaryOperator} (h : op ∈ compoundOperators) :
    compoundAssign op ∈ all :=
  List.mem_append_right _ (List.mem_map_of_mem h)

end Connector

/-- A connector between blanks is found behind an operand. -/
theorem following?_connector {c : Connector} (h : c ∈ Connector.all) (cs : List Char) :
    following? (' ' :: (c.token.toList ++ ' ' :: cs)) = some (.connector c, cs) := by
  have token : (c.token.toList ++ ' ' :: cs).takeWhile (· != ' ') = c.token.toList := by
    rw [List.takeWhile_append_of_pos (Connector.no_blank_in_token h),
      List.takeWhile_cons_of_neg (by decide), List.append_nil]
  have rest : (c.token.toList ++ ' ' :: cs).dropWhile (· != ' ') = ' ' :: cs := by
    rw [List.dropWhile_append_of_pos (Connector.no_blank_in_token h),
      List.dropWhile_cons_of_neg (by decide)]
  rw [following?, token, rest, Connector.ofToken?_token h]
  rfl

/-- A unary operator that follows its operand is found there. -/
theorem following?_unary {op : UnaryOperator} (h : op.followsOperand = true) (cs : List Char) :
    following? (op.token.toList ++ cs) = some (.unary op, cs) := by
  cases op with
  | postIncrement | postDecrement => rfl
  | _ => cases h

/-- A unary operator that follows its operand ends the word in front of it. -/
theorem ends_token {op : UnaryOperator} (h : op.followsOperand = true) (cs : List Char) :
    Ends (op.token.toList ++ cs) := by
  cases op with
  | postIncrement | postDecrement => exact ends_cons (by decide) _
  | _ => cases h

/-- What follows an operand at some level is not a part of it. -/
def Stops (level : Nat) (cs : List Char) : Prop :=
  ∀ f more, following? cs = some (f, more) → ∃ c, f = .connector c ∧ level < c.level

/-- What is no part of an operand is no part of one that binds more tightly. -/
theorem Stops.mono {level level' : Nat} {cs : List Char} (h : Stops level' cs)
    (le : level ≤ level') : Stops level cs := by
  intro f more next
  obtain ⟨c, hc, lt⟩ := h f more next
  exact ⟨c, hc, Nat.lt_of_le_of_lt le lt⟩

/-- A connector is no part of operands that bind more tightly than it does. -/
theorem stops_connector {c : Connector} (h : c ∈ Connector.all) {level : Nat}
    (lt : level < c.level) (cs : List Char) :
    Stops level (' ' :: (c.token.toList ++ ' ' :: cs)) := by
  intro f more next
  rw [following?_connector h] at next
  obtain ⟨rfl, -⟩ := Prod.mk.inj (Option.some.inj next)
  exact ⟨c, rfl, lt⟩

/-- Where nothing follows an operand, the operand is complete. -/
theorem stops_of_none {level : Nat} {cs : List Char} (h : following? cs = none) :
    Stops level cs := by
  intro f more next
  rw [h] at next
  cases next

/-- An operand is complete where what follows is no part of it. -/
theorem Phrase.read_of_stops {level : Nat} {cs : List Char} (h : Stops level cs) (e : Expr) :
    (after level e).read cs = some (e, cs) := by
  rw [read]
  cases next : following? cs with
  | none => rfl
  | some found =>
    obtain ⟨c, hc, lt⟩ := h found.1 found.2 next
    obtain ⟨f, more⟩ := found
    obtain rfl : f = .connector c := hc
    exact if_pos lt

end Reader

end JavaRefactor
