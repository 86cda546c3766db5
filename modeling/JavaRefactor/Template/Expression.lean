import JavaRefactor.Fix
import JavaRefactor.Matching.Expr
import JavaRefactor.Pattern.Negation
import JavaRefactor.Template.Basic

/-!
# Expression templates

A template of a single expression.  Code matches it if it has the form of the pattern,
contains no comment, and has the right types.
-/

namespace JavaRefactor

/-- A template of an expression, with the type of its result. -/
structure ExpressionTemplate where
  header : TemplateHeader
  pattern : ExprPattern
  result : TypePattern

/-- The result type of a template that cannot be negated. -/
structure NonBooleanResult where
  type : TypePattern

/-- A conditional, or the one that is evaluated alike with its condition negated and its
branches swapped; other patterns stay as they are. -/
def ExprPattern.orReversed : ExprPattern → ExprPattern
  | .conditional cond yes no =>
    .anyOf [.conditional cond yes no, .conditional cond.negate no yes]
  | p => p

namespace ExpressionTemplate

/-- The template of a pattern, with its options taken into account. -/
def ofPattern (header : TemplateHeader) (pattern : ExprPattern) (result : TypePattern) :
    ExpressionTemplate :=
  { header, result
    pattern := if header.options.alsoReverseTernary then pattern.orReversed else pattern }

/-- The bindings under which an expression matches. -/
def match? (t : ExpressionTemplate) (c : MatchContext) (target : Expr) : Option Bindings := do
  let b ← t.pattern.unify c.unit.symbols target .empty
  if c.unit.hasCommentWithin target.span then none
  else t.header.typeCheck c.table b (some (t.result, target.type))

/-- The fix that writes the template in place of an expression, which stands in a place that
holds expressions up to some level without parentheses. -/
def replace (t : ExpressionTemplate) (c : MatchContext) (target : Expr) (b : Bindings)
    (policy : ImportPolicy) (level : Nat) : Except ExpansionError Fix :=
  match (t.pattern.expand (c.expansion b policy)).run .empty with
  | (.ok e, imports) => .ok ⟨[⟨target.span, e.renderAt c.unit.source level⟩], imports⟩
  | (.error e, _) => .error e

/-- The template of the negated expression. -/
def negation (t : ExpressionTemplate) : Except NonBooleanResult ExpressionTemplate :=
  if t.result.isBoolean then
    .ok
      { t with
        header := { t.header with options := { t.header.options with alsoNegation := false } }
        pattern := t.pattern.negate }
  else .error ⟨t.result⟩

end ExpressionTemplate

end JavaRefactor
