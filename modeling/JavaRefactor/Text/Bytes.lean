/-!
# Byte offsets into text

Source positions count the bytes of the UTF-8 encoding.  This file reads a text as a list
of characters, each as wide as its encoding, and cuts it at byte offsets.  `takeBytes` and
`dropBytes` cut at the last character boundary that is not past the offset, so together
they lose nothing (`takeBytes_append_dropBytes`); `slice?` is the strict form, which only
answers when both ends are character boundaries of the text.
-/

namespace JavaRefactor

namespace Text

/-- The number of bytes in the UTF-8 encoding of some characters. -/
def byteLength : List Char → Nat
  | [] => 0
  | c :: cs => c.utf8Size + byteLength cs

@[simp] theorem byteLength_nil : byteLength [] = 0 := rfl

@[simp] theorem byteLength_cons (c : Char) (cs : List Char) :
    byteLength (c :: cs) = c.utf8Size + byteLength cs := rfl

/-- Characters side by side take the bytes of both. -/
@[simp] theorem byteLength_append (as bs : List Char) :
    byteLength (as ++ bs) = byteLength as + byteLength bs := by
  induction as with
  | nil => simp
  | cons a as ih => simp [ih, Nat.add_assoc]

/-! ### Cutting at an offset

A character belongs to the first part when all of its bytes lie before the offset. -/

/-- The longest initial run of characters that fits into `n` bytes. -/
def takeBytes : Nat → List Char → List Char
  | _, [] => []
  | n, c :: cs => if c.utf8Size ≤ n then c :: takeBytes (n - c.utf8Size) cs else []

/-- What remains after `takeBytes n`. -/
def dropBytes : Nat → List Char → List Char
  | _, [] => []
  | n, c :: cs => if c.utf8Size ≤ n then dropBytes (n - c.utf8Size) cs else c :: cs

/-- Cutting loses nothing. -/
theorem takeBytes_append_dropBytes (n : Nat) (cs : List Char) :
    takeBytes n cs ++ dropBytes n cs = cs := by
  induction cs generalizing n with
  | nil => rfl
  | cons c cs ih =>
    by_cases h : c.utf8Size ≤ n
    · simp [takeBytes, dropBytes, h, ih]
    · simp [takeBytes, dropBytes, h]

/-- Whether a byte offset falls between two characters, or at either end of the text. -/
def isBoundary (cs : List Char) (n : Nat) : Bool :=
  byteLength (takeBytes n cs) == n

/-- The characters from byte `start` up to byte `stop`, provided the two offsets are in
order and both are boundaries of the text. -/
def slice? (cs : List Char) (start stop : Nat) : Option (List Char) :=
  if start ≤ stop ∧ isBoundary cs start ∧ isBoundary cs stop then
    some (takeBytes (stop - start) (dropBytes start cs))
  else
    none

end Text

/-- The text between two byte offsets, when both are character boundaries. -/
def sliceText? (source : String) (start stop : Nat) : Option String :=
  (Text.slice? source.toList start stop).map String.ofList

end JavaRefactor
