import JavaRefactor.Text.Unprintable

/-!
# Quoted text

Two ways to write text between quotes.  A *literal* writes every character outside the
printable part of ASCII by its number and escapes both kinds of quote; a *displayed*
string keeps printable characters of every script and escapes only the double quote.
-/

namespace JavaRefactor

namespace Text

/-- The backslash. -/
def backslash : Char := Char.ofNat 0x5c

/-- The single quote. -/
def singleQuote : Char := Char.ofNat 0x27

/-- The double quote. -/
def doubleQuote : Char := Char.ofNat 0x22

/-- A character written by its number in lower-case hexadecimal digits. -/
def numberEscape (c : Char) : List Char :=
  backslash :: 'u' :: '\x7b' :: (Nat.toDigits 16 c.toNat ++ ['\x7d'])

/-! ### Literals -/

/-- A character as it stands inside a literal. -/
def literalEscape (c : Char) : List Char :=
  if c = '\t' then [backslash, 't']
  else if c = '\r' then [backslash, 'r']
  else if c = '\n' then [backslash, 'n']
  else if c = singleQuote ∨ c = doubleQuote ∨ c = backslash then [backslash, c]
  else if 0x20 ≤ c.toNat ∧ c.toNat ≤ 0x7e then [c]
  else numberEscape c

/-- A string literal: double quotes around its escaped characters. -/
def stringLiteral (s : String) : String :=
  String.ofList (doubleQuote :: (s.toList.flatMap literalEscape ++ [doubleQuote]))

/-- A character literal: single quotes around its escaped character. -/
def charLiteral (c : Char) : String :=
  String.ofList (singleQuote :: (literalEscape c ++ [singleQuote]))

/-! ### Displayed strings -/

/-- A character as it stands inside a displayed string. -/
def displayEscape (c : Char) : List Char :=
  if c = Char.ofNat 0 then [backslash, '0']
  else if c = '\t' then [backslash, 't']
  else if c = '\r' then [backslash, 'r']
  else if c = '\n' then [backslash, 'n']
  else if c = doubleQuote ∨ c = backslash then [backslash, c]
  else if isShownByNumber c then numberEscape c
  else [c]

/-- A string as messages display it, between double quotes. -/
def displayed (s : String) : String :=
  String.ofList (doubleQuote :: (s.toList.flatMap displayEscape ++ [doubleQuote]))

end Text

end JavaRefactor
