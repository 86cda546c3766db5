import JavaRefactor.Pattern.Basic

/-!
# Negation of patterns

The logical negation of a boolean pattern.  It turns comparisons into their complements,
goes through connectives, parentheses and the branches of a conditional, and takes away a
`!`; where none of this applies it adds one.
-/

namespace JavaRefactor

namespace ExprPattern

/-- The pattern under a `!`. -/
def not (operand : ExprPattern) : ExprPattern := .unary .not operand

/-- The negation of a pattern. -/
def negate : ExprPattern → ExprPattern
  | .literal (.bool value) => .literal (.bool !value)
  | .unary .not operand => operand
  | .binary op left right =>
    match op.complement?, op.dual? with
    | some complement, _ => .binary complement left right
    | none, some dual => .binary dual left.negate right.negate
    | none, none => .not (.binary op left right)
  | .paren inner => .paren inner.negate
  | .conditional cond yes no => .conditional cond yes.negate no.negate
  | p => .not p

end ExprPattern

end JavaRefactor
