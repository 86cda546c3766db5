/-!
# Operators

The operators of expressions with their tokens and binding strengths, and the two tables
that negation relies on: the complement of a comparison and the De Morgan dual of a
connective.  A larger precedence binds more loosely.
-/

namespace JavaRefactor

/-- An operator between two operands. -/
inductive BinaryOperator where
  | add | sub | mul | div | mod
  | eq | notEq | lt | le | gt | ge
  | and | or
  | bitAnd | bitOr | bitXor
  | shiftLeft | shiftRight | shiftRightUnsigned
  deriving DecidableEq, Repr

namespace BinaryOperator

/-- The token in source text. -/
def token : BinaryOperator → String
  | add => "+"
  | sub => "-"
  | mul => "*"
  | div => "/"
  | mod => "%"
  | eq => "=="
  | notEq => "!="
  | lt => "<"
  | le => "<="
  | gt => ">"
  | ge => ">="
  | and => "&&"
  | or => "||"
  | bitAnd => "&"
  | bitOr => "|"
  | bitXor => "^"
  | shiftLeft => "<<"
  | shiftRight => ">>"
  | shiftRightUnsigned => ">>>"

/-- All binary operators. -/
def all : List BinaryOperator :=
  [add, sub, mul, div, mod, eq, notEq, lt, le, gt, ge, and, or, bitAnd, bitOr, bitXor,
    shiftLeft, shiftRight, shiftRightUnsigned]

/-- The operator that a token stands for. -/
def ofToken? (text : String) : Option BinaryOperator :=
  all.find? fun op => op.token == text

/-- The binding level. -/
def precedence : BinaryOperator → Nat
  | mul | div | mod => 3
  | add | sub => 4
  | shiftLeft | shiftRight | shiftRightUnsigned => 5
  | lt | le | gt | ge => 6
  | eq | notEq => 7
  | bitAnd => 8
  | bitXor => 9
  | bitOr => 10
  | and => 11
  | or => 12

/-- The comparison that holds exactly when this one does not. -/
def complement? : BinaryOperator → Option BinaryOperator
  | eq => some notEq
  | notEq => some eq
  | lt => some ge
  | le => some gt
  | gt => some le
  | ge => some lt
  | _ => none

/-- The connective that takes this one's place under negation. -/
def dual? : BinaryOperator → Option BinaryOperator
  | and => some or
  | or => some and
  | bitAnd => some bitOr
  | bitOr => some bitAnd
  | _ => none

/-- Whether the operands can be exchanged. -/
def isCommutative : BinaryOperator → Bool
  | add | mul | eq | notEq | and | or | bitAnd | bitOr | bitXor => true
  | _ => false

/-- The list of binary operators is complete. -/
theorem mem_all (op : BinaryOperator) : op ∈ all := by
  cases op <;> decide

/-- Complementing twice gives the comparison back. -/
theorem complement?_complement? {op co : BinaryOperator} (h : op.complement? = some co) :
    co.complement? = some op := by
  cases op <;> simp_all [complement?] <;> subst h <;> rfl

/-- Dualizing twice gives the connective back. -/
theorem dual?_dual? {op co : BinaryOperator} (h : op.dual? = some co) :
    co.dual? = some op := by
  cases op <;> simp_all [dual?] <;> subst h <;> rfl

end BinaryOperator

/-- An operator with one operand. -/
inductive UnaryOperator where
  | preIncrement
  | preDecrement
  | postIncrement
  | postDecrement
  | plus
  | minus
  | bitNot
  | not
  deriving DecidableEq, Repr

namespace UnaryOperator

/-- The token in source text. -/
def token : UnaryOperator → String
  | preIncrement | postIncrement => "++"
  | preDecrement | postDecrement => "--"
  | plus => "+"
  | minus => "-"
  | bitNot => "~"
  | not => "!"

/-- Whether the token follows the operand. -/
def followsOperand : UnaryOperator → Bool
  | postIncrement | postDecrement => true
  | _ => false

/-- The binding level. -/
def precedence (op : UnaryOperator) : Nat := if op.followsOperand then 1 else 2

/-- The sign whose repetition the token of a preceding operator consists of. -/
def sign? : UnaryOperator → Option Char
  | minus | preDecrement => some '-'
  | plus | preIncrement => some '+'
  | _ => none

end UnaryOperator

end JavaRefactor
