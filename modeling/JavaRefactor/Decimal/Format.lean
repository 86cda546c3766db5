import JavaRefactor.Decimal.Shortest

/-!
# Floating point text

The bit patterns of the two binary interchange formats, and how a value of theirs is
written in decimal.  The choices of a written form (where positional notation ends, what
marks a whole number, the words for the special values) are the fields of one record.
-/

namespace JavaRefactor

namespace Decimal

/-! ### Bit patterns -/

/-- A binary interchange format: widths of the fraction and of the exponent in bits. -/
structure Interchange where
  fractionBits : Nat
  exponentBits : Nat

/-- The 32-bit format. -/
def Interchange.single : Interchange := ⟨23, 8⟩

/-- The 64-bit format. -/
def Interchange.double : Interchange := ⟨52, 11⟩

/-- What a bit pattern stands for. -/
inductive Reading where
  | nan
  | infinity (negative : Bool)
  | zero (negative : Bool)
  | finite (negative : Bool) (magnitude : Binary)

/-- Decode a bit pattern. -/
def Interchange.read (f : Interchange) (bits : Nat) : Reading :=
  let fraction := bits % Nat.pow 2 f.fractionBits
  let exponent := bits / Nat.pow 2 f.fractionBits % Nat.pow 2 f.exponentBits
  let negative := bits / Nat.pow 2 (f.fractionBits + f.exponentBits) % 2 == 1
  let bias := Int.ofNat (Nat.pow 2 (f.exponentBits - 1) - 1 + f.fractionBits)
  if exponent = Nat.pow 2 f.exponentBits - 1 then
    if fraction = 0 then .infinity negative else .nan
  else if exponent = 0 then
    if fraction = 0 then .zero negative else .finite negative ⟨fraction, 1 - bias, false⟩
  else
    .finite negative
      ⟨fraction + Nat.pow 2 f.fractionBits, Int.ofNat exponent - bias,
        fraction == 0 && decide (1 < exponent)⟩

/-! ### Written forms -/

/-- How decimal digits are laid out as text. -/
structure Style where
  /-- The least exponent of a first digit that is written positionally. -/
  leastPositional : Int
  /-- The greatest exponent of a first digit that is written positionally. -/
  greatestPositional : Int
  /-- What follows the digits of a whole number in positional form. -/
  wholeMark : String
  /-- What stands before the exponent otherwise. -/
  exponentMark : String
  /-- The word for a value that is not a number. -/
  nan : String
  /-- The word for an infinite value, without its sign. -/
  infinity : String

/-- Digits in positional form. -/
def Style.positional (style : Style) (d : Digits) : String :=
  if d.exponent < 0 then
    "0." ++ String.ofList (List.replicate (-d.exponent - 1).toNat '0' ++ d.digits)
  else
    let whole := d.exponent.toNat + 1
    if d.digits.length ≤ whole then
      String.ofList (d.digits ++ List.replicate (whole - d.digits.length) '0') ++ style.wholeMark
    else
      String.ofList (d.digits.take whole) ++ "." ++ String.ofList (d.digits.drop whole)

/-- Digits with an exponent: one digit, then a point and the others if there are any. -/
def Style.scientific (style : Style) (d : Digits) : String :=
  let rest := d.digits.drop 1
  String.ofList (d.digits.take 1)
    ++ (if rest.isEmpty then "" else "." ++ String.ofList rest)
    ++ style.exponentMark ++ toString d.exponent

/-- Digits in the form that their exponent asks for. -/
def Style.write (style : Style) (d : Digits) : String :=
  if style.leastPositional ≤ d.exponent ∧ d.exponent ≤ style.greatestPositional then
    style.positional d
  else
    style.scientific d

/-- The text of a reading.  A value that is not a number has no sign. -/
def Style.text (style : Style) : Reading → String
  | .nan => style.nan
  | .infinity negative => sign negative ++ style.infinity
  | .zero negative => sign negative ++ "0" ++ style.wholeMark
  | .finite negative b => sign negative ++ style.write b.shortest
where
  sign (negative : Bool) : String := if negative then "-" else ""

end Decimal

end JavaRefactor
