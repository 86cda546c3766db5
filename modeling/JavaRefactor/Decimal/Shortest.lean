/-!
# Shortest decimal digits

A binary floating point number stands for all reals that round to it.  The shortest decimal
of the number is the one with the fewest digits among those reals, and the nearest to the
number among these; of two equally near ones, the larger.  The search runs over the decimal
grids with one, two, three, … significant digits and looks at the two neighbours of the
number on each of them, in exact arithmetic on natural numbers.
-/

namespace JavaRefactor

namespace Decimal

/-- The number of decimal digits of `n`, where zero has none. -/
def digitCount (n : Nat) : Nat :=
  if n = 0 then 0 else (Nat.toDigits 10 n).length

/-! ### Binary numbers and the reals that round to them -/

/-- The positive number `mantissa · 2 ^ exponent`.  Its neighbours are one unit of the
mantissa away, except that the lower one is half a unit away when `narrowBelow` holds. -/
structure Binary where
  mantissa : Nat
  exponent : Int
  narrowBelow : Bool

namespace Binary

/-- The number in quarter units of its mantissa. -/
def quarters (b : Binary) : Nat := 4 * b.mantissa

/-- The least real that rounds to the number, in quarter units. -/
def low (b : Binary) : Nat := b.quarters - (if b.narrowBelow then 1 else 2)

/-- The greatest real that rounds to the number, in quarter units. -/
def high (b : Binary) : Nat := b.quarters + 2

/-- Whether the two ends of the interval belong to it: a tie rounds to the even mantissa. -/
def endsIncluded (b : Binary) : Bool := b.mantissa % 2 == 0

end Binary

/-- The fraction `num / den` by which quarter units are multiplied to count steps of a
decimal grid. -/
structure Scale where
  num : Nat
  den : Nat

/-- The scale from quarter units of `b` to the grid of multiples of `10 ^ grid`. -/
def Binary.scale (b : Binary) (grid : Int) : Scale where
  num := Nat.pow 2 (b.exponent - 2).toNat * Nat.pow 10 (-grid).toNat
  den := Nat.pow 2 (2 - b.exponent).toNat * Nat.pow 10 grid.toNat

/-- Whether `c` grid steps round to the number. -/
def Binary.accepts (b : Binary) (s : Scale) (c : Nat) : Bool :=
  if b.endsIncluded then
    decide (b.low * s.num ≤ c * s.den) && decide (c * s.den ≤ b.high * s.num)
  else
    decide (b.low * s.num < c * s.den) && decide (c * s.den < b.high * s.num)

/-- The neighbour of the number on a decimal grid that rounds to it, if there is one; the
nearer one if both do, and the upper one on a tie. -/
def Binary.onGrid? (b : Binary) (s : Scale) : Option Nat :=
  let value := b.quarters * s.num
  let below := value / s.den
  let above := below + 1
  match b.accepts s below, b.accepts s above with
  | true, true => if value - below * s.den < above * s.den - value then some below else some above
  | true, false => some below
  | false, true => some above
  | false, false => none

/-! ### The search -/

/-- The exponent `k` with `10 ^ (k - 1) ≤ num / den < 10 ^ k`. -/
def magnitude (num den : Nat) : Int :=
  if den ≤ num then
    digitCount (num / den)
  else
    1 - (digitCount ((den + num - 1) / num - 1) : Int)

/-- The first grid, from `digits` significant digits on, with a point that rounds to the
number: the point and the exponent of the grid. -/
def Binary.search (b : Binary) (k : Int) : Nat → Nat → Nat × Int
  | _, 0 => (b.mantissa, b.exponent)
  | digits, fuel + 1 =>
    let grid := k - digits
    match b.onGrid? (b.scale grid) with
    | some c => (c, grid)
    | none => b.search k (digits + 1) fuel

/-- Significant digits and the decimal exponent of the first of them. -/
structure Digits where
  digits : List Char
  exponent : Int

/-- The shortest decimal that rounds to the number.  Seventeen digits always suffice for
the formats below. -/
def Binary.shortest (b : Binary) : Digits :=
  let s := b.scale 0
  let k := magnitude (b.quarters * s.num) s.den
  let (c, grid) := b.search k 1 17
  let all := Nat.toDigits 10 c
  { digits := (all.reverse.dropWhile (· == '0')).reverse
    exponent := grid + all.length - 1 }

end Decimal

end JavaRefactor
