import JavaRefactor.Decimal.Format
import JavaRefactor.JavaType.Basic
import JavaRefactor.Text.Quoted

/-!
# Literals

Literal values with their types and their source text.  Floating point values are kept as
bit patterns, so that equality of literals is decidable and tells signed zeros apart.
-/

namespace JavaRefactor

/-- A literal value. -/
inductive Literal where
  | int (value : Int)
  | long (value : Int)
  | float (bits : UInt32)
  | double (bits : UInt64)
  | char (value : Char)
  | bool (value : Bool)
  | string (value : String)
  | null
  deriving DecidableEq

namespace Literal

/-- The type of a literal. -/
def type : Literal → JavaType
  | int _ => .primitive .int
  | long _ => .primitive .long
  | float _ => .primitive .float
  | double _ => .primitive .double
  | char _ => .primitive .char
  | bool _ => .primitive .boolean
  | string _ => .string
  | null => .primitive .null

/-- Floating point literals are positional from `10⁻⁴` up to below `10¹⁶`, where whole
numbers end in `.0`; beyond that an `e` stands before the exponent. -/
def floatStyle : Decimal.Style where
  leastPositional := -4
  greatestPositional := 15
  wholeMark := ".0"
  exponentMark := "e"
  nan := "NaN"
  infinity := "inf"

/-- A literal in source text. -/
def text : Literal → String
  | int value => toString value
  | long value => toString value ++ "L"
  | float bits => floatStyle.text (Decimal.Interchange.single.read bits.toNat) ++ "f"
  | double bits => floatStyle.text (Decimal.Interchange.double.read bits.toNat)
  | char value => Text.charLiteral value
  | bool true => "true"
  | bool false => "false"
  | string value => Text.stringLiteral value
  | null => "null"

end Literal

end JavaRefactor
