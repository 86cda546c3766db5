import JavaRefactor.Proofs.Layout.Printed

/-!
# Literals as Java reads them

How Java reads the source text of a string or a character literal, in two steps.  First the
Unicode escapes are replaced everywhere in the text (`JavaLiteral.translate`); what comes out are
the code units of UTF-16.  Then what stands between the quotes is read, with its escape sequences
(`JavaLiteral.readBody`).

A literal is printed in printable ASCII, but a character that is not in it is written by its number
in braces, which is no Unicode escape of Java.  So a literal is read back exactly if all of its
characters are tabs, line ends or printable ASCII; every other text is no literal of Java at all
(`Expr.print_literal_read`).
-/

namespace JavaRefactor

namespace JavaLiteral

open Text

/-! ### Code units -/

/-- The code units of a character in UTF-16. -/
def codeUnits (c : Char) : List UInt16 :=
  if c.toNat < 0x10000 then [c.toNat.toUInt16]
  else [(0xd800 + (c.toNat - 0x10000) / 0x400).toUInt16,
    (0xdc00 + (c.toNat - 0x10000) % 0x400).toUInt16]

/-- The code units of a text in UTF-16. -/
def utf16 (cs : List Char) : List UInt16 := cs.flatMap codeUnits

/-- The units of characters side by side are those of both. -/
@[simp] theorem utf16_append (cs ds : List Char) : utf16 (cs ++ ds) = utf16 cs ++ utf16 ds :=
  List.flatMap_append

/-- The code unit of a character of the basic plane. -/
def unit (c : Char) : UInt16 := c.toNat.toUInt16

/-! ### Unicode escapes -/

/-- The value of a hexadecimal digit. -/
def hexDigit? (c : Char) : Option ℕ :=
  if '0' ≤ c ∧ c ≤ '9' then some (c.toNat - '0'.toNat)
  else if 'a' ≤ c ∧ c ≤ 'f' then some (c.toNat - 'a'.toNat + 10)
  else if 'A' ≤ c ∧ c ≤ 'F' then some (c.toNat - 'A'.toNat + 10)
  else none

/-- Where the translation of Unicode escapes stands. -/
inductive Position where
  | plain
  /-- Behind a backslash that may open a Unicode escape. -/
  | backslash
  /-- Behind a backslash and at least one `u`. -/
  | mark
  /-- Behind some hexadecimal digits, with their value. -/
  | digits (count value : ℕ)

/-- Replace the Unicode escapes of a text: a backslash, any number of `u`, and four hexadecimal
digits.  A backslash behind a backslash opens none, and neither does one that stands for an escape.
A backslash and `u` without four digits are an error. -/
def translate : Position → List Char → Option (List UInt16)
  | .plain, [] => some []
  | .plain, c :: cs =>
    if c = backslash then translate .backslash cs
    else (translate .plain cs).map (codeUnits c ++ ·)
  | .backslash, [] => some [unit backslash]
  | .backslash, c :: cs =>
    if c = 'u' then translate .mark cs
    else (translate .plain cs).map (unit backslash :: codeUnits c ++ ·)
  | .mark, [] => none
  | .mark, c :: cs =>
    if c = 'u' then translate .mark cs
    else match hexDigit? c with
      | some d => translate (.digits 1 d) cs
      | none => none
  | .digits _ _, [] => none
  | .digits count value, c :: cs =>
    match hexDigit? c with
    | some d =>
      if count = 3 then (translate .plain cs).map ((16 * value + d).toUInt16 :: ·)
      else translate (.digits (count + 1) (16 * value + d)) cs
    | none => none

/-! ### Escape sequences -/

/-- What a letter, a quote or a backslash stands for behind a backslash. -/
def letterEscapes : List (UInt16 × UInt16) :=
  [(unit 'b', 8), (unit 't', 9), (unit 'n', 10), (unit 'f', 12), (unit 'r', 13), (unit 's', 32),
    (unit doubleQuote, unit doubleQuote), (unit singleQuote, unit singleQuote),
    (unit backslash, unit backslash)]

/-- Whether a code unit is an octal digit. -/
def isOctalDigit (u : UInt16) : Bool := unit '0' ≤ u && u ≤ unit '7'

/-- The octal digits in front: up to three of them, but up to two if the first is above `3`. -/
def octalDigits (us : List UInt16) : List UInt16 :=
  (us.take (if us.head?.any (· ≤ unit '3') then 3 else 2)).takeWhile isOctalDigit

/-- The value of an escape sequence behind its backslash, and its number of code units. -/
def escape? (us : List UInt16) : Option (UInt16 × ℕ) :=
  match us.head?.bind (letterEscapes.lookup ·), octalDigits us with
  | some value, _ => some (value, 1)
  | none, [] => none
  | none, digits => some (digits.foldl (fun v d => 8 * v + (d - unit '0')) 0, digits.length)

/-- Read a literal behind its opening quote, after some code units that were read already.  The
closing quote is the last code unit, and there is no line end in front of it. -/
def readBody (quote : UInt16) : ℕ → List UInt16 → Option (List UInt16)
  | _, [] => none
  | skip + 1, _ :: us => readBody quote skip us
  | 0, u :: us =>
    if u = quote then if us = [] then some [] else none
    else if u = unit backslash then
      match escape? us with
      | some (value, length) => (readBody quote length us).map (value :: ·)
      | none => none
    else if u = unit '\n' ∨ u = unit '\r' then none
    else (readBody quote 0 us).map (u :: ·)

/-- Read a literal between quotes of some kind. -/
def read (quote : Char) (text : String) : Option (List UInt16) :=
  match translate .plain text.toList with
  | some (u :: us) => if u = unit quote then readBody (unit quote) 0 us else none
  | _ => none

/-- The code units of a string literal, if the text is one. -/
def string? (text : String) : Option (List UInt16) := read doubleQuote text

/-- The code unit of a character literal, if the text is one. -/
def char? (text : String) : Option UInt16 :=
  match read singleQuote text with
  | some [u] => some u
  | _ => none

/-! ### How literals are printed -/

/-- A printable character of ASCII. -/
def isPrintable (c : Char) : Bool := 0x20 ≤ c.toNat && c.toNat ≤ 0x7e

/-- A character that a literal does not write by its number. -/
def isPlain (c : Char) : Bool := c = '\t' || c = '\r' || c = '\n' || isPrintable c

/-- The characters that stand behind a backslash in a literal, with what they are written for. -/
def writtenEscapes : List (Char × Char) :=
  [('t', '\t'), ('r', '\r'), ('n', '\n'), (singleQuote, singleQuote), (doubleQuote, doubleQuote),
    (backslash, backslash)]

/-- How a character is written: as it is, behind a backslash, or by its number. -/
inductive Written (c : Char) : List Char → Prop where
  | bare : isPrintable c = true → c ≠ singleQuote → c ≠ doubleQuote → c ≠ backslash → Written c [c]
  | escaped {e : Char} : (e, c) ∈ writtenEscapes → Written c [backslash, e]
  | numbered : isPlain c = false → Written c (numberEscape c)

/-- Every character is written as one of the forms that are read. -/
theorem written_literalEscape (c : Char) : Written c (literalEscape c) := by
  unfold literalEscape
  split_ifs with tab cr lf quote ascii
  · exact .escaped (by simp [tab, writtenEscapes])
  · exact .escaped (by simp [cr, writtenEscapes])
  · exact .escaped (by simp [lf, writtenEscapes])
  · exact .escaped (by rcases quote with rfl | rfl | rfl <;> decide)
  · simp only [not_or] at quote
    exact .bare (by simp [isPrintable, ascii]) quote.1 quote.2.1 quote.2.2
  · exact .numbered (by simp [isPlain, isPrintable, tab, cr, lf]; omega)

variable {c e : Char} {text : List Char}

/-- Printable characters are ASCII. -/
theorem toNat_le_of_isPrintable (h : isPrintable c = true) : c.toNat ≤ 0x7e := by
  simp only [isPrintable, Bool.and_eq_true, decide_eq_true_eq] at h
  exact h.2

/-- Plain characters are ASCII. -/
theorem toNat_le_of_isPlain (h : isPlain c = true) : c.toNat ≤ 0x7e := by
  simp only [isPlain, Bool.or_eq_true, decide_eq_true_eq] at h
  rcases h with ((rfl | rfl) | rfl) | printable
  · decide
  · decide
  · decide
  · exact toNat_le_of_isPrintable printable

/-- A character of ASCII is one unit. -/
theorem codeUnits_of_ascii (h : c.toNat ≤ 0x7e) : codeUnits c = [unit c] :=
  if_pos (by omega)

/-- The unit of a character of ASCII has its number. -/
theorem toNat_unit (h : c.toNat ≤ 0x7e) : (unit c).toNat = c.toNat :=
  UInt16.toNat_ofNat_of_lt' (h.trans_lt (by decide))

/-- Characters of ASCII are told apart by their code units. -/
theorem unit_ne (hc : c.toNat ≤ 0x7e) (he : e.toNat ≤ 0x7e) (different : c ≠ e) :
    unit c ≠ unit e := by
  intro same
  refine different (Char.toNat_inj.1 ?_)
  rw [← toNat_unit hc, same, toNat_unit he]

/-- Every digit of a number is printable. -/
theorem isPrintable_of_mem_toDigits (n : ℕ) (h : c ∈ Nat.toDigits 16 n) :
    isPrintable c = true := by
  have digit : ∀ d < 16, isPrintable (Nat.digitChar d) = true := by decide
  induction n using Nat.strong_induction_on with
  | h n ih =>
    rw [Nat.toDigits_eq_if (by decide)] at h
    split_ifs at h with last
    · rw [List.mem_singleton.1 h]
      exact digit n last
    · rcases List.mem_append.1 h with front | last
      · exact ih (n / 16) (by omega) front
      · rw [List.mem_singleton.1 last]
        exact digit (n % 16) (by omega)

/-- Everything that is written is printable. -/
theorem Written.printable (h : Written c text) : text.all isPrintable = true := by
  cases h with
  | bare printable => rw [List.all_cons, printable, List.all_nil]; rfl
  | @escaped e pair =>
    have table : ∀ p ∈ writtenEscapes, [backslash, p.1].all isPrintable = true := by decide
    exact table (e, c) pair
  | numbered =>
    have digits : (Nat.toDigits 16 c.toNat).all isPrintable = true :=
      List.all_eq_true.2 fun _ => isPrintable_of_mem_toDigits c.toNat
    simp only [numberEscape, List.all_cons, List.all_append, digits]
    decide

/-- Escapes of one letter stay as they are, and a character by its number is no Unicode escape. -/
theorem Written.translate (h : Written c text) (cs : List Char) :
    translate .plain (text ++ cs) =
      if isPlain c then (translate .plain cs).map (utf16 text ++ ·) else none := by
  cases h with
  | bare printable _ _ notBackslash =>
    have plain : isPlain c = true := by simp [isPlain, printable]
    rw [if_pos plain, List.singleton_append, JavaLiteral.translate, if_neg notBackslash, utf16,
      List.flatMap_singleton]
  | @escaped e pair =>
    have plain : ∀ p ∈ writtenEscapes, p.1 ≠ 'u' ∧ isPlain p.2 = true := by decide
    obtain ⟨notMark, plain⟩ := plain (e, c) pair
    have units : codeUnits backslash = [unit backslash] := rfl
    simp [plain, notMark, units, JavaLiteral.translate, utf16]
  | numbered notPlain =>
    rw [if_neg (by simp [notPlain])]
    rfl

/-- What is written for a plain character is read as the character. -/
theorem Written.readBody (h : Written c text) (plain : isPlain c = true) {quote : UInt16}
    (hq : quote = unit singleQuote ∨ quote = unit doubleQuote) (us : List UInt16) :
    readBody quote 0 (utf16 text ++ us) = (readBody quote 0 us).map (codeUnits c ++ ·) := by
  cases h with
  | bare printable single double notBackslash =>
    have high := toNat_le_of_isPrintable printable
    have noQuote : unit c ≠ quote := by
      rcases hq with rfl | rfl
      · exact unit_ne high (by decide) single
      · exact unit_ne high (by decide) double
    have noEnd : ¬ (unit c = unit '\n' ∨ unit c = unit '\r') := by
      rintro (lf | cr)
      · exact unit_ne high (by decide) (by rintro rfl; exact absurd printable (by decide)) lf
      · exact unit_ne high (by decide) (by rintro rfl; exact absurd printable (by decide)) cr
    rw [utf16, List.flatMap_singleton, codeUnits_of_ascii high, List.singleton_append,
      JavaLiteral.readBody, if_neg noQuote, if_neg (unit_ne high (by decide) notBackslash),
      if_neg noEnd]
    rfl
  | @escaped e pair =>
    have table : ∀ p ∈ writtenEscapes, utf16 [backslash, p.1] = [unit backslash, unit p.1] ∧
        letterEscapes.lookup (unit p.1) = some (unit p.2) ∧ codeUnits p.2 = [unit p.2] := by
      decide
    obtain ⟨units, meaning, value⟩ := table (e, c) pair
    have noQuote : unit backslash ≠ quote := by rcases hq with rfl | rfl <;> decide
    have sequence : escape? (unit e :: us) = some (unit c, 1) := by
      simp only [escape?, List.head?_cons, Option.bind_some, meaning]
    rw [units, value, List.cons_append, List.singleton_append, JavaLiteral.readBody,
      if_neg noQuote, if_pos rfl, sequence]
    rfl
  | numbered notPlain => exact absurd plain (by simp [notPlain])

/-! ### Whole literals -/

/-- What comes out of the translation of a literal. -/
theorem translate_literal (cs : List Char) {quote : Char} (hq : quote ≠ backslash) :
    translate .plain (quote :: (cs.flatMap literalEscape ++ [quote])) =
      if cs.all isPlain then
        some (codeUnits quote ++ (utf16 (cs.flatMap literalEscape) ++ codeUnits quote))
      else none := by
  -- one character that is no Unicode escape spoils all that stands in front of it
  have behind (cs : List Char) : translate .plain (cs.flatMap literalEscape ++ [quote]) =
      if cs.all isPlain then some (utf16 (cs.flatMap literalEscape) ++ codeUnits quote)
      else none := by
    induction cs with
    | nil => simp [translate, hq, utf16]
    | cons c cs ih =>
      rw [List.flatMap_cons, List.append_assoc, (written_literalEscape c).translate, ih]
      by_cases first : isPlain c = true
      · by_cases others : cs.all isPlain = true
        · simp [first, others, utf16]
        · simp [first, others]
      · simp [first]
  rw [translate, if_neg hq, behind]
  split <;> rfl

/-- What stands between the quotes is read character by character. -/
theorem readBody_flatMap {cs : List Char} (plain : cs.all isPlain = true) {quote : UInt16}
    (hq : quote = unit singleQuote ∨ quote = unit doubleQuote) :
    readBody quote 0 (utf16 (cs.flatMap literalEscape) ++ [quote]) = some (utf16 cs) := by
  induction cs with
  | nil => simp [readBody, utf16]
  | cons c cs ih =>
    rw [List.all_cons, Bool.and_eq_true] at plain
    rw [List.flatMap_cons, utf16_append, List.append_assoc,
      (written_literalEscape c).readBody plain.1 hq, ih plain.2]
    rfl

/-- Between quotes, characters are read back exactly if all of them are plain. -/
theorem read_literal (cs : List Char) {quote : Char}
    (hq : quote = singleQuote ∨ quote = doubleQuote) :
    read quote (String.ofList (quote :: (cs.flatMap literalEscape ++ [quote]))) =
      if cs.all isPlain then some (utf16 cs) else none := by
  have units : codeUnits quote = [unit quote] ∧ quote ≠ backslash ∧
      (unit quote = unit singleQuote ∨ unit quote = unit doubleQuote) := by
    rcases hq with rfl | rfl <;> decide
  rw [read, String.toList_ofList, translate_literal cs units.2.1]
  by_cases plain : cs.all isPlain = true
  · simp only [if_pos plain, units.1, List.singleton_append]
    exact readBody_flatMap plain units.2.2
  · simp only [if_neg plain]

/-- A literal is printable as a whole. -/
theorem printable_literal (cs : List Char) {quote : Char}
    (hq : quote = singleQuote ∨ quote = doubleQuote) :
    (quote :: (cs.flatMap literalEscape ++ [quote])).all isPrintable = true := by
  have ends : isPrintable quote = true := by rcases hq with rfl | rfl <;> decide
  have body : (cs.flatMap literalEscape).all isPrintable = true := by
    rw [List.all_flatMap, List.all_eq_true]
    intro c _
    exact (written_literalEscape c).printable
  simp only [List.all_cons, List.all_append, List.all_nil, ends, body, Bool.and_self]

end JavaLiteral

open JavaLiteral

/-- A string or a character literal is printed in printable ASCII, whatever it holds.  Java reads it
back as the string or the character if all characters are tabs, line ends or printable ASCII; if
not, what is printed is no literal of Java. -/
theorem Expr.print_literal_read (info : NodeInfo) :
    (∀ s : String,
      (literal info (.string s)).print.toList.all isPrintable = true ∧
      string? (literal info (.string s)).print =
        if s.toList.all isPlain then some (utf16 s.toList) else none) ∧
    ∀ c : Char,
      (literal info (.char c)).print.toList.all isPrintable = true ∧
      char? (literal info (.char c)).print = if isPlain c then some (unit c) else none := by
  constructor
  · intro s
    rw [print_literal]
    refine ⟨?_, read_literal s.toList (.inr rfl)⟩
    rw [Literal.text, Text.stringLiteral, String.toList_ofList]
    exact printable_literal s.toList (.inr rfl)
  · intro c
    have whole : Text.charLiteral c = String.ofList
        (Text.singleQuote :: ([c].flatMap Text.literalEscape ++ [Text.singleQuote])) := by
      rw [List.flatMap_singleton, Text.charLiteral]
    rw [print_literal, Literal.text, whole]
    constructor
    · rw [String.toList_ofList]
      exact printable_literal [c] (.inl rfl)
    · rw [char?, read_literal [c] (.inl rfl)]
      by_cases plain : isPlain c = true
      · simp [plain, utf16, codeUnits_of_ascii (toNat_le_of_isPlain plain)]
      · simp [plain]

/-- A letter with an accent is printed as no string literal of Java. -/
theorem Expr.not_string?_print :
    ¬ ∀ (info : NodeInfo) (s : String),
      string? (literal info (.string s)).print = some (utf16 s.toList) := by
  intro read
  have accent := read (.ofType .string) "é"
  rw [print_literal] at accent
  exact absurd accent (by decide)

/-- The same letter as Java has it. -/
example : string? "\"\\u00e9\"" = some (utf16 "é".toList) := by decide

end JavaRefactor
