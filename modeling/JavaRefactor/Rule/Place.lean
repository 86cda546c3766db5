import JavaRefactor.Tree.Expr

/-!
# Places of subexpressions

What stands in a place of an expression is written without parentheses if it binds at least
as tightly as the place requires.  `Expr.places` gives the direct subexpressions with the
loosest level that their places hold.
-/

namespace JavaRefactor

namespace Expr

/-- Expressions in places that hold every expression. -/
def openPlaces (es : List Expr) : List (Expr × Nat) := es.map fun e => (e, assignLevel)

/-- The direct subexpressions in source order, each with the loosest level of expressions
that its place holds without parentheses. -/
def places : Expr → List (Expr × Nat)
  | literal .. | ident .. | this .. | super .. | primitiveType .. => []
  | select _ receiver _ _ => [(receiver, 0)]
  | binary _ op left right => [(left, op.precedence), (right, op.precedence - 1)]
  | unary _ op operand => [(operand, op.precedence)]
  | assign _ target value => [(target, 1), (value, assignLevel)]
  | compoundAssign _ _ target value => [(target, 1), (value, assignLevel)]
  | conditional _ cond yes no =>
    [(cond, conditionalLevel - 1), (yes, conditionalLevel), (no, conditionalLevel)]
  | cast _ type operand => [(type, assignLevel), (operand, 2)]
  | instanceOf _ operand type => [(operand, 6), (type, assignLevel)]
  | call _ callee args => (callee, 0) :: openPlaces args
  | index _ array position => [(array, 0), (position, assignLevel)]
  | newArray _ element dims init =>
    openPlaces (element.toList ++ (dims ++ init.getD []))
  | newObject _ type args => openPlaces (type :: args)
  | paren _ inner => [(inner, assignLevel)]
  | typeApply _ base args => openPlaces (base :: args)
  | arrayType _ element => [(element, assignLevel)]

/-- Each of some expressions has an open place. -/
theorem map_fst_openPlaces (es : List Expr) : (openPlaces es).map Prod.fst = es := by
  simp [openPlaces, Function.comp_def]

/-- Each child of an expression has a place, in the order of the children. -/
theorem map_fst_places (e : Expr) : e.places.map Prod.fst = e.children := by
  cases e <;> simp [places, children, map_fst_openPlaces]

/-- What stands in a place is smaller than the expression. -/
theorem sizeOf_lt_of_mem_places {e : Expr} {place : Expr × Nat} (h : place ∈ e.places) :
    sizeOf place.1 < sizeOf e :=
  sizeOf_lt_of_mem_children (map_fst_places e ▸ List.mem_map_of_mem h)

end Expr

end JavaRefactor
