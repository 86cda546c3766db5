import JavaRefactor.Pattern.Type
import JavaRefactor.Tree.Expr

/-!
# Patterns of expressions and statements

A pattern is a syntax tree with pattern variables in place of some parts.  A free variable
stands for any expression, a repeated one for the rest of a list of expressions, a local
variable for one that the pattern declares itself, and a type variable for a type parameter
used as an expression.  References to classes and static members are resolved, so they
match however the target writes them.
-/

namespace JavaRefactor

/-- A pattern of expressions. -/
inductive ExprPattern where
  | literal (value : Literal)
  /-- Any expression, the same one wherever the name occurs. -/
  | free (name : String)
  /-- A local variable that the pattern declares. -/
  | localVar (name : String)
  /-- A type parameter that is used as an expression. -/
  | typeVar (name : String)
  /-- A class by qualified name. -/
  | classRef (name : String)
  /-- A static member of a class. -/
  | staticRef (owner member : String) (type : TypePattern)
  | binary (op : BinaryOperator) (left right : ExprPattern)
  | unary (op : UnaryOperator) (operand : ExprPattern)
  | assign (target value : ExprPattern)
  | compoundAssign (op : BinaryOperator) (target value : ExprPattern)
  | conditional (cond yes no : ExprPattern)
  | cast (type operand : ExprPattern)
  | instanceOf (operand type : ExprPattern)
  | call (callee : ExprPattern) (args : List ExprPattern)
  /-- A member of a receiver, with its declared type. -/
  | select (receiver : ExprPattern) (name : String) (type : TypePattern)
  | index (array position : ExprPattern)
  | newArray (element : Option ExprPattern) (dims : List ExprPattern)
      (init : Option (List ExprPattern))
  | newObject (type : ExprPattern) (args : List ExprPattern)
  /-- Parentheses, which the target may leave out. -/
  | paren (inner : ExprPattern)
  | primitiveType (kind : Primitive)
  | typeApply (base : ExprPattern) (args : List ExprPattern)
  | arrayType (element : ExprPattern)
  /-- The first of some patterns that matches. -/
  | anyOf (alternatives : List ExprPattern)
  /-- The remaining expressions of a list; only the last element of one can be repeated. -/
  | repeated (name : String)
  /-- A pattern that only matches expressions of certain forms. -/
  | ofForm (inner : ExprPattern) (allowed : List ExprForm)
  deriving Inhabited

/-- A pattern of declarations.  Its name stands for the declared variable. -/
structure DeclPattern where
  name : String
  type : ExprPattern
  init : Option ExprPattern

/-- A pattern of statements. -/
inductive StmtPattern where
  | block (stmts : List StmtPattern)
  | ifElse (cond : ExprPattern) (yes : StmtPattern) (no : Option StmtPattern)
  | whileLoop (cond : ExprPattern) (body : StmtPattern)
  | doLoop (body : StmtPattern) (cond : ExprPattern)
  | forLoop (init : List StmtPattern) (cond : Option ExprPattern) (update : List ExprPattern)
      (body : StmtPattern)
  | forEach (var : DeclPattern) (iterable : ExprPattern) (body : StmtPattern)
  | ret (value : Option ExprPattern)
  | raise (value : ExprPattern)
  | synchronized (lock : ExprPattern) (body : StmtPattern)
  | expr (value : ExprPattern)
  | empty
  | declare (decl : DeclPattern)
  deriving Inhabited

end JavaRefactor
