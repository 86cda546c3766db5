/-!
# Primitive types

The primitive types of Java, with `void` and the type of `null` beside them, their wrapper
classes, and widening conversion between them.
-/

namespace JavaRefactor

/-- A primitive type, `void`, or the type of `null`. -/
inductive Primitive where
  | boolean
  | byte
  | short
  | int
  | long
  | char
  | float
  | double
  | void
  | null
  deriving DecidableEq, Repr

namespace Primitive

/-- The word that stands for the type in source text. -/
def keyword : Primitive → String
  | boolean => "boolean"
  | byte => "byte"
  | short => "short"
  | int => "int"
  | long => "long"
  | char => "char"
  | float => "float"
  | double => "double"
  | void => "void"
  | null => "null"

/-- All of them, in the order of their declaration. -/
def all : List Primitive :=
  [boolean, byte, short, int, long, char, float, double, void, null]

/-- The type that a keyword stands for. -/
def ofKeyword? (word : String) : Option Primitive :=
  all.find? fun p => p.keyword == word

/-- The class that boxing conversion wraps a value in. -/
def wrapper? : Primitive → Option String
  | boolean => some "java.lang.Boolean"
  | byte => some "java.lang.Byte"
  | short => some "java.lang.Short"
  | int => some "java.lang.Integer"
  | long => some "java.lang.Long"
  | char => some "java.lang.Character"
  | float => some "java.lang.Float"
  | double => some "java.lang.Double"
  | void => none
  | null => none

/-- The primitive type that a class wraps. -/
def ofWrapper? (className : String) : Option Primitive :=
  all.find? fun p => p.wrapper? == some className

/-- Whether a value converts by identity or by widening. -/
def widensTo (p q : Primitive) : Bool :=
  p == q ||
    match p with
    | byte => [short, int, long, float, double].contains q
    | short | char => [int, long, float, double].contains q
    | int => [long, float, double].contains q
    | long => [float, double].contains q
    | float => q == double
    | _ => false

/-- The list of primitive types is complete. -/
theorem mem_all (p : Primitive) : p ∈ all := by
  cases p <;> decide

/-- Every primitive type widens to itself. -/
@[simp] theorem widensTo_refl (p : Primitive) : p.widensTo p = true := by
  simp [widensTo]

end Primitive

end JavaRefactor
