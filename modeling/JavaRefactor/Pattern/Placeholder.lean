import JavaRefactor.Pattern.Basic

/-!
# Placeholder calls

Templates are written in Java, and some patterns have no syntax there.  Calls of the static
methods of one class, the placeholders, stand for them.
-/

namespace JavaRefactor

/-- A method that stands for a pattern. -/
inductive Placeholder where
  | anyOf
  | isInstance
  | classLiteral
  | newArray
  | enumValueOf
  deriving DecidableEq, Repr

namespace Placeholder

/-- The qualified name of the class that declares the placeholders. -/
def className : String := "recast.Refaster"

/-- All placeholders. -/
def all : List Placeholder := [anyOf, isInstance, classLiteral, newArray, enumValueOf]

/-- The name of the method. -/
def member : Placeholder → String
  | anyOf => "anyOf"
  | isInstance => "isInstance"
  | classLiteral => "clazz"
  | newArray => "newArray"
  | enumValueOf => "enumValueOf"

/-- The placeholder that a method of a class is, if it is one. -/
def find? (owner name : String) : Option Placeholder :=
  if owner = className then all.find? fun p => p.member == name else none

/-- The pattern that a call stands for, given the type argument of the call; there is none
when the number of arguments is wrong. -/
def pattern? (p : Placeholder) (typeArg : String) (args : List ExprPattern) :
    Option ExprPattern :=
  match p, args with
  | anyOf, [] => none
  | anyOf, args => some (.anyOf args)
  | isInstance, [operand] => some (.instanceOf operand (.typeVar typeArg))
  | classLiteral, [] =>
    some (.select (.typeVar typeArg) "class" (.declared "java.lang.Class" [.var typeArg]))
  | newArray, [size] => some (.newArray (some (.typeVar typeArg)) [size] none)
  | enumValueOf, [name] =>
    let valueOf := TypePattern.method [.ofClass "java.lang.String"] (.var typeArg)
    some (.call (.select (.typeVar typeArg) "valueOf" valueOf) [name])
  | _, _ => none

end Placeholder

end JavaRefactor
