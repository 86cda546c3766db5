import Mathlib.Data.List.Infix

/-!
# The tokens of a source text

A text is read from left to right.  What is being read is a lexeme, and it goes on as long as
the next character still belongs to it, so that every token is the longest one at its place.
White space and comments separate tokens and are no tokens themselves.

A blank between two texts matters exactly if the first character of the second text would
have gone on with the last lexeme of the first one (`Lexeme.lex_blank`,
`Lexeme.lex_ne_lex_blank`).  This is worked out for texts that end in the sign of an operator.
-/

namespace JavaRefactor

/-! ### Lexemes -/

/-- What is being read. -/
inductive Lexeme where
  /-- Nothing that becomes a token. -/
  | blank
  /-- An identifier, a keyword or a number. -/
  | word (cs : List Char)
  /-- An operator or a separator. -/
  | operator (cs : List Char)
  /-- A string or a character that is not closed yet, perhaps right after a backslash. -/
  | quoted (isString isEscaped : Bool) (cs : List Char)
  /-- A string or a character that is closed. -/
  | closed (cs : List Char)
  | lineComment
  /-- A comment of any number of lines, perhaps right after an asterisk. -/
  | blockComment (isClosing : Bool)
  deriving DecidableEq

namespace Lexeme

/-- The operators and separators. -/
def operators : List (List Char) :=
  ["(", ")", "\x7b", "\x7d", "[", "]", ";", ",", ".", "...", "@", "::", "=", ">", "<", "!", "~",
    "?", ":", "->", "==", ">=", "<=", "!=", "&&", "||", "++", "--", "+", "-", "*", "/", "&", "|",
    "^", "%", "<<", ">>", ">>>", "+=", "-=", "*=", "/=", "&=", "|=", "^=", "%=", "<<=", ">>=",
    ">>>="].map String.toList

/-- What an operator or a separator starts with. -/
def operatorPrefixes : List (List Char) := operators.flatMap List.inits

/-- Whether a character is white space. -/
def isBlank (c : Char) : Bool :=
  c == ' ' || c == '\t' || c == '\n' || c == '\r' || c == '\x0c'

/-- Whether a character can stand in an identifier. -/
def isWordChar (c : Char) : Bool := c.isAlphanum || c == '_' || c == '$' || 128 ≤ c.toNat

/-- Whether a word is a number: it starts with a digit, or with a point and a digit. -/
def isNumber : List Char → Bool
  | '.' :: _ => true
  | c :: _ => c.isDigit
  | [] => false

/-- Whether a word is a number in base sixteen. -/
def isHexadecimal (cs : List Char) : Bool :=
  ['0', 'x'].isPrefixOf cs || ['0', 'X'].isPrefixOf cs

/-- Whether a word is a number that may go on with the sign of its exponent. -/
def endsInExponent (cs : List Char) : Bool :=
  isNumber cs && match cs.getLast? with
    | some c => if isHexadecimal cs then c == 'p' || c == 'P' else c == 'e' || c == 'E'
    | none => false

/-- Whether a word goes on with a character: one of identifiers, or in a number the decimal
point or the sign of the exponent. -/
def continuesWord (cs : List Char) (c : Char) : Bool :=
  isWordChar c || (c == '.' && isNumber cs && !cs.contains '.')
    || ((c == '+' || c == '-') && endsInExponent cs)

/-- The lexeme that starts with a character. -/
def start (c : Char) : Lexeme :=
  if isBlank c then blank
  else if c = '"' then quoted true false [c]
  else if c = '\'' then quoted false false [c]
  else if isWordChar c then word [c]
  else operator [c]

/-- The lexeme that goes on with a character, if it does. -/
def continue? : Lexeme → Char → Option Lexeme
  | blank, _ | closed _, _ => none
  | word cs, c => if continuesWord cs c then some (word (cs ++ [c])) else none
  | operator cs, c =>
    if cs = ['/'] ∧ c = '/' then some lineComment
    else if cs = ['/'] ∧ c = '*' then some (blockComment false)
    else if cs = ['.'] ∧ c.isDigit then some (word (cs ++ [c]))
    else if cs ++ [c] ∈ operatorPrefixes then some (operator (cs ++ [c]))
    else none
  | quoted isString true cs, c => some (quoted isString false (cs ++ [c]))
  | quoted isString false cs, c =>
    if c = '\\' then some (quoted isString true (cs ++ [c]))
    else if c = (if isString then '"' else '\'') then some (closed (cs ++ [c]))
    else some (quoted isString false (cs ++ [c]))
  | lineComment, c => if c = '\n' ∨ c = '\r' then none else some lineComment
  | blockComment isClosing, c =>
    if isClosing ∧ c = '/' then some blank else some (blockComment (c == '*'))

/-- The tokens that a lexeme becomes when it ends.  What is no operator as a whole is read
one character at a time. -/
def tokens : Lexeme → List (List Char)
  | blank | lineComment | blockComment _ => []
  | word cs | quoted _ _ cs | closed cs => [cs]
  | operator cs => if cs ∈ operators then [cs] else cs.map fun c => [c]

/-- The tokens of a lexeme and the text after it. -/
def lex (x : Lexeme) : List Char → List (List Char)
  | [] => x.tokens
  | c :: cs =>
    match x.continue? c with
    | some y => y.lex cs
    | none => x.tokens ++ (start c).lex cs

/-- What is being read after a character. -/
def next (x : Lexeme) (c : Char) : Lexeme := (x.continue? c).getD (start c)

/-- Whether a character goes on with what becomes a token. -/
def joins (x : Lexeme) (c : Char) : Bool :=
  match x with
  | word _ | operator _ | quoted .. => (x.continue? c).isSome
  | _ => false

end Lexeme

/-- The tokens of a text. -/
def javaTokens (text : String) : List String := (Lexeme.blank.lex text.toList).map String.ofList

/-- What is being read at the end of a text. -/
def lastLexeme (text : String) : Lexeme := text.toList.foldl Lexeme.next .blank

example : javaTokens "x = - -1.5e-3+y--; // done" =
    ["x", "=", "-", "-", "1.5e-3", "+", "y", "--", ";"] := by decide +kernel

example : javaTokens "s >>>= f('\\'', \"a // b\")/* c */-x->y" =
    ["s", ">>>=", "f", "(", "'\\''", ",", "\"a // b\"", ")", "-", "x", "->", "y"] := by
  decide +kernel

namespace Lexeme

/-! ### Reading on -/

/-- Reading a text and then another one: the tokens of the first that are finished, and then
what is being read goes on. -/
theorem lex_append (x : Lexeme) (as : List Char) :
    ∃ ts, ∀ bs, x.lex (as ++ bs) = ts ++ (as.foldl next x).lex bs := by
  induction as generalizing x with
  | nil => exact ⟨[], fun bs => rfl⟩
  | cons a as ih =>
    obtain ⟨ts, h⟩ := ih (x.next a)
    cases goesOn : x.continue? a with
    | some y =>
      have same : x.next a = y := by rw [next, goesOn, Option.getD_some]
      rw [same] at h
      refine ⟨ts, ?_⟩
      intro bs
      rw [List.cons_append, lex, goesOn, List.foldl_cons, same]
      exact h bs
    | none =>
      have same : x.next a = start a := by rw [next, goesOn, Option.getD_none]
      rw [same] at h
      refine ⟨x.tokens ++ ts, ?_⟩
      intro bs
      rw [List.cons_append, lex, goesOn, List.foldl_cons, same, List.append_assoc]
      exact congrArg (x.tokens ++ ·) (h bs)

/-- A lexeme that goes on with a character reads on behind it. -/
theorem lex_cons_some {x y : Lexeme} {c : Char} (h : x.continue? c = some y) (cs : List Char) :
    x.lex (c :: cs) = y.lex cs := by
  rw [lex, h]

/-- A lexeme that does not go on with a character ends, and another one starts there. -/
theorem lex_cons_none {x : Lexeme} {c : Char} (h : x.continue? c = none) (cs : List Char) :
    x.lex (c :: cs) = x.tokens ++ (start c).lex cs := by
  rw [lex, h]

/-- The next token after a word starts with the word. -/
theorem lex_word (cs ws : List Char) : ∃ t rest, (word cs).lex ws = (cs ++ t) :: rest := by
  induction ws generalizing cs with
  | nil => exact ⟨[], [], by rw [lex, tokens, List.append_nil]⟩
  | cons w ws ih =>
    by_cases h : continuesWord cs w
    · obtain ⟨t, rest, hw⟩ := ih (cs ++ [w])
      have goesOn : (word cs).continue? w = some (word (cs ++ [w])) := if_pos h
      refine ⟨w :: t, rest, ?_⟩
      rw [lex_cons_some goesOn, hw, List.append_assoc]
      rfl
    · have ends : (word cs).continue? w = none := if_neg h
      refine ⟨[], (start w).lex ws, ?_⟩
      rw [lex_cons_none ends, tokens, List.append_nil]
      rfl

/-- The next token after the first characters of a string starts with them; how it goes on
does not depend on them. -/
theorem lex_quoted (isString isEscaped : Bool) (ws : List Char) :
    ∃ t rest, ∀ cs, (quoted isString isEscaped cs).lex ws = (cs ++ t) :: rest := by
  induction ws generalizing isEscaped with
  | nil => exact ⟨[], [], fun cs => by rw [lex, tokens, List.append_nil]⟩
  | cons w ws ih =>
    have goesOn (isEscaped' : Bool) (h : ∀ cs, (quoted isString isEscaped cs).continue? w
        = some (quoted isString isEscaped' (cs ++ [w]))) :
        ∃ t rest, ∀ cs, (quoted isString isEscaped cs).lex (w :: ws) = (cs ++ t) :: rest := by
      obtain ⟨t, rest, hw⟩ := ih isEscaped'
      refine ⟨w :: t, rest, ?_⟩
      intro cs
      rw [lex_cons_some (h cs), hw, List.append_assoc]
      rfl
    cases isEscaped with
    | true => exact goesOn false fun cs => rfl
    | false =>
      by_cases backslash : w = '\\'
      · exact goesOn true fun cs => if_pos backslash
      · by_cases delimiter : w = (if isString then '"' else '\'')
        · have ends (cs : List Char) : (quoted isString false cs).continue? w
              = some (closed (cs ++ [w])) := by
            rw [continue?, if_neg backslash, if_pos delimiter]
          cases ws with
          | nil => exact ⟨[w], [], fun cs => by rw [lex_cons_some (ends cs), lex, tokens]⟩
          | cons v vs =>
            refine ⟨[w], (start v).lex vs, ?_⟩
            intro cs
            rw [lex_cons_some (ends cs), lex_cons_none rfl, tokens]
            rfl
        · exact goesOn false fun cs => by rw [continue?, if_neg backslash, if_neg delimiter]

/-- The next token after the first characters of an operator starts with the same character,
unless they can start a comment. -/
theorem lex_operator {w : Char} (noComment : w ≠ '/') (cs ws : List Char) :
    ∃ t rest, (operator (w :: cs)).lex ws = (w :: t) :: rest := by
  have finished (cs : List Char) : ∃ t rest, (operator (w :: cs)).tokens = (w :: t) :: rest := by
    by_cases h : w :: cs ∈ operators
    · exact ⟨cs, [], if_pos h⟩
    · exact ⟨[], cs.map fun c => [c], if_neg h⟩
  induction ws generalizing cs with
  | nil => exact finished cs
  | cons v vs ih =>
    have slash : ¬ w :: cs = ['/'] := fun h => noComment (List.cons.inj h).1
    cases goesOn : (operator (w :: cs)).continue? v with
    | none =>
      obtain ⟨t, rest, ht⟩ := finished cs
      exact ⟨t, rest ++ (start v).lex vs, by rw [lex_cons_none goesOn, ht]; rfl⟩
    | some y =>
      rw [lex_cons_some goesOn]
      rw [continue?, if_neg fun h => slash h.1, if_neg fun h => slash h.1] at goesOn
      split at goesOn
      · obtain ⟨t, rest, ht⟩ := lex_word (w :: cs ++ [v]) vs
        rw [← Option.some.inj goesOn]
        exact ⟨cs ++ [v] ++ t, rest, ht⟩
      · split at goesOn
        · rw [← Option.some.inj goesOn]
          exact ih (cs ++ [v])
        · exact absurd goesOn (by simp)

/-! ### After a sign -/

/-- What can be read right after a sign. -/
inductive AfterSign (sign : Char) : Lexeme → Prop where
  | single : AfterSign sign (operator [sign])
  | double : AfterSign sign (operator [sign, sign])
  | word (cs : List Char) : AfterSign sign (word cs)
  | quoted (isString : Bool) (cs : List Char) : AfterSign sign (quoted isString false cs)
  | lineComment : AfterSign sign lineComment
  | blockComment : AfterSign sign (blockComment false)

/-- Reading a sign. -/
theorem afterSign_next {sign : Char} (h : sign = '+' ∨ sign = '-') (x : Lexeme) :
    AfterSign sign (x.next sign) := by
  have fresh : AfterSign sign (start sign) := by
    have first : start sign = operator [sign] := by
      rcases h with rfl | rfl <;> decide
    rw [first]
    exact .single
  -- No operator but these two ends in the sign, so nothing else can go on with it.
  have plus : ∀ p ∈ operatorPrefixes, p.getLast? = some '+' → p = ['+'] ∨ p = ['+', '+'] := by
    decide +kernel
  have minus : ∀ p ∈ operatorPrefixes, p.getLast? = some '-' → p = ['-'] ∨ p = ['-', '-'] := by
    decide +kernel
  cases x with
  | blank => exact fresh
  | closed cs => exact fresh
  | word cs =>
    rw [next, continue?]
    split
    · exact .word _
    · exact fresh
  | operator cs =>
    rw [next, continue?, if_neg (by rcases h with rfl | rfl <;> simp),
      if_neg (by rcases h with rfl | rfl <;> simp),
      if_neg (by rcases h with rfl | rfl <;> simp)]
    split
    · rename_i hmem
      have last : (cs ++ [sign]).getLast? = some sign := List.getLast?_concat
      have shape : cs ++ [sign] = [sign] ∨ cs ++ [sign] = [sign, sign] := by
        rcases h with rfl | rfl
        · exact plus _ hmem last
        · exact minus _ hmem last
      rcases shape with shape | shape
      · rw [shape]
        exact .single
      · rw [shape]
        exact .double
    · exact fresh
  | quoted isString isEscaped cs =>
    have delimiter : sign ≠ (if isString then '"' else '\'') := by
      cases isString <;> rcases h with rfl | rfl <;> decide
    have backslash : sign ≠ '\\' := by rcases h with rfl | rfl <;> decide
    cases isEscaped with
    | true => exact .quoted isString _
    | false =>
      rw [next, continue?, if_neg backslash, if_neg delimiter]
      exact .quoted isString _
  | lineComment =>
    rw [next, continue?, if_neg (by rcases h with rfl | rfl <;> decide)]
    exact .lineComment
  | blockComment isClosing =>
    have noStar : (sign == '*') = false := by rcases h with rfl | rfl <;> decide
    rw [next, continue?, if_neg (by rcases h with rfl | rfl <;> simp), noStar]
    exact .blockComment

/-- What a sign goes on with is an operator of two characters that ends there. -/
theorem continue?_single {sign c : Char} (h : sign = '+' ∨ sign = '-') {y : Lexeme}
    (goesOn : (operator [sign]).continue? c = some y) :
    start c = operator [c] ∧ c ≠ '/' ∧ c ≠ '(' ∧
      ∀ cs, ∃ rest, y.lex cs = [sign, c] :: rest := by
  have pairs : ∀ p ∈ operatorPrefixes, p.head? = some '+' ∨ p.head? = some '-' →
      p ∈ [['+'], ['-'], ['+', '+'], ['+', '='], ['-', '-'], ['-', '='], ['-', '>']] := by
    decide +kernel
  have signed (t : List Char) : (sign :: t).head? = some '+' ∨ (sign :: t).head? = some '-' := by
    rcases h with rfl | rfl
    · exact .inl rfl
    · exact .inr rfl
  -- a sign and one more character are not gone on with
  have noTriple (c v : Char) : [sign, c] ++ [v] ∉ operatorPrefixes := fun hmem => by
    have listed := pairs _ hmem (signed [c, v])
    simp at listed
  rw [continue?, if_neg (by rcases h with rfl | rfl <;> simp),
    if_neg (by rcases h with rfl | rfl <;> simp),
    if_neg (by rcases h with rfl | rfl <;> simp)] at goesOn
  split at goesOn
  · rename_i hmem
    have pair := pairs _ hmem (signed [c])
    have ends (cs : List Char) (whole : [sign, c] ∈ operators) :
        ∃ rest, (operator [sign, c]).lex cs = [sign, c] :: rest := by
      cases cs with
      | nil => exact ⟨[], by rw [lex, tokens, if_pos whole]⟩
      | cons v vs =>
        have stops : (operator [sign, c]).continue? v = none := by
          rw [continue?, if_neg (by simp), if_neg (by simp), if_neg (by simp),
            if_neg (noTriple c v)]
        exact ⟨(start v).lex vs, by rw [lex_cons_none stops, tokens, if_pos whole]; rfl⟩
    rw [← Option.some.inj goesOn]
    simp only [List.cons_append, List.nil_append, List.mem_cons, List.cons.injEq,
      List.not_mem_nil, or_false, and_true] at pair
    rcases pair with ⟨-, h⟩ | ⟨-, h⟩ | ⟨rfl, rfl⟩ | ⟨rfl, rfl⟩ | ⟨rfl, rfl⟩ | ⟨rfl, rfl⟩ |
      ⟨rfl, rfl⟩
    · exact absurd h (by simp)
    · exact absurd h (by simp)
    all_goals
      exact ⟨by decide, by decide, by decide, fun cs => ends cs (by decide +kernel)⟩
  · exact absurd goesOn (by simp)

/-- Two signs of an operator do not go on. -/
theorem continue?_double {sign : Char} (h : sign = '+' ∨ sign = '-') (c : Char) :
    (operator [sign, sign]).continue? c = none := by
  have long : ∀ p ∈ operatorPrefixes, p.head? = some '+' ∨ p.head? = some '-' →
      p.length ≤ 2 := by
    decide +kernel
  have noTriple : [sign, sign] ++ [c] ∉ operatorPrefixes := fun hmem => by
    have short := long _ hmem (by rcases h with rfl | rfl <;> simp)
    simp at short
  rw [continue?, if_neg (by simp), if_neg (by simp), if_neg (by simp), if_neg noTriple]

/-- A word goes on neither with a blank nor with a parenthesis. -/
theorem continuesWord_separator {d : Char} (h : d = ' ' ∨ d = '(') (cs : List Char) :
    continuesWord cs d = false := by
  rcases h with rfl | rfl <;> simp [continuesWord, isWordChar]

/-- A character of identifiers starts a word. -/
theorem start_of_isWordChar {c : Char} (h : isWordChar c = true) : start c = word [c] := by
  have noBlank : isBlank c = false := by
    by_contra hblank
    simp only [isBlank, Bool.not_eq_false, Bool.or_eq_true, beq_iff_eq] at hblank
    rcases hblank with (((rfl | rfl) | rfl) | rfl) | rfl <;> revert h <;> decide
  have noQuote : c ≠ '"' ∧ c ≠ '\'' := by
    refine ⟨?_, ?_⟩ <;> rintro rfl <;> revert h <;> decide
  rw [start, noBlank, if_neg Bool.false_ne_true, if_neg noQuote.1, if_neg noQuote.2, if_pos h]

/-- What a word goes on with is the first character of a token if it stands alone. -/
theorem lex_start_of_continuesWord {cs : List Char} {c : Char} (h : continuesWord cs c = true)
    (ws : List Char) : ∃ t rest, (start c).lex ws = (c :: t) :: rest := by
  rw [continuesWord, Bool.or_eq_true, Bool.or_eq_true] at h
  rcases h with (hc | hc) | hc
  · rw [start_of_isWordChar hc]
    exact lex_word [c] ws
  · have point : c = '.' := by
      rw [Bool.and_eq_true, Bool.and_eq_true, beq_iff_eq] at hc
      exact hc.1.1
    subst point
    exact lex_operator (by decide) [] ws
  · rw [Bool.and_eq_true, Bool.or_eq_true, beq_iff_eq, beq_iff_eq] at hc
    rcases hc.1 with rfl | rfl
    · exact lex_operator (by decide) [] ws
    · exact lex_operator (by decide) [] ws

/-! ### Blanks and parentheses after a sign -/

section Separators

variable {sign c d : Char} {x : Lexeme}

/-- Blanks and parentheses end what is being read after a sign, but not a string. -/
theorem lex_single_separator (h : sign = '+' ∨ sign = '-') (hd : d = ' ' ∨ d = '(')
    (ds : List Char) : (operator [sign]).lex (d :: ds) = [sign] :: (start d).lex ds := by
  have ends : (operator [sign]).continue? d = none := by
    rcases h with rfl | rfl <;> rcases hd with rfl | rfl <;> decide +kernel
  have alone : (operator [sign]).tokens = [[sign]] := by
    rcases h with rfl | rfl <;> decide +kernel
  rw [lex_cons_none ends, alone]
  rfl

/-- A blank or a parenthesis ends a word. -/
theorem lex_word_separator (hd : d = ' ' ∨ d = '(') (cs ds : List Char) :
    (word cs).lex (d :: ds) = cs :: (start d).lex ds := by
  have ends : (word cs).continue? d = none := by
    rw [continue?, continuesWord_separator hd, if_neg Bool.false_ne_true]
  rw [lex_cons_none ends, tokens]
  rfl

/-- A blank or a parenthesis does not end a literal in quotes. -/
theorem lex_quoted_separator (hd : d = ' ' ∨ d = '(') (isString : Bool) (cs ds : List Char) :
    (quoted isString false cs).lex (d :: ds) = (quoted isString false (cs ++ [d])).lex ds := by
  refine lex_cons_some ?_ ds
  cases isString <;> rcases hd with rfl | rfl <;> rfl

/-- A blank is left out. -/
theorem lex_start_blank (c : Char) (cs : List Char) :
    (start ' ').lex (c :: cs) = (start c).lex cs :=
  lex_cons_none rfl cs

/-- A blank in front of a character that does not go on with what is being read does not
matter. -/
theorem lex_blank (h : sign = '+' ∨ sign = '-') (after : AfterSign sign x)
    (separate : x.joins c = false) (cs : List Char) : x.lex (' ' :: c :: cs) = x.lex (c :: cs) := by
  cases after with
  | single =>
    have ends : (operator [sign]).continue? c = none :=
      Option.not_isSome_iff_eq_none.mp (Bool.eq_false_iff.mp separate)
    have blank : (operator [sign]).continue? ' ' = none := by
      rcases h with rfl | rfl <;> decide +kernel
    rw [lex_cons_none blank, lex_cons_none ends, lex_start_blank]
  | double =>
    rw [lex_cons_none (continue?_double h ' '), lex_cons_none (continue?_double h c),
      lex_start_blank]
  | word ds =>
    have ends : (word ds).continue? c = none :=
      Option.not_isSome_iff_eq_none.mp (Bool.eq_false_iff.mp separate)
    rw [lex_word_separator (.inl rfl), lex_cons_none ends, lex_start_blank]
    rfl
  | quoted isString ds =>
    have goesOn : ((quoted isString false ds).continue? c).isSome = true := by
      by_cases backslash : c = '\\'
      · rw [continue?, if_pos backslash, Option.isSome_some]
      · rw [continue?, if_neg backslash, apply_ite Option.isSome, Option.isSome_some,
          Option.isSome_some, ite_self]
    exact absurd (goesOn.symm.trans separate) (by simp)
  | lineComment => rfl
  | blockComment => rfl

/-- A character that goes on with a sign makes an operator with it. -/
theorem lex_single_joined (h : sign = '+' ∨ sign = '-')
    (joined : (operator [sign]).joins c = true) (cs : List Char) :
    ∃ rest, (operator [sign]).lex (c :: cs) = [sign, c] :: rest := by
  obtain ⟨y, goesOn⟩ := Option.isSome_iff_exists.mp joined
  obtain ⟨-, -, -, pair⟩ := continue?_single h goesOn
  rw [lex_cons_some goesOn]
  exact pair cs

/-- A character that goes on with a word stands in it. -/
theorem lex_word_joined {ds : List Char} (joined : (word ds).joins c = true) (cs : List Char) :
    continuesWord ds c = true ∧ ∃ t rest, (word ds).lex (c :: cs) = (ds ++ [c] ++ t) :: rest := by
  have goesOn : continuesWord ds c = true := by
    by_contra ends
    rw [joins, continue?, if_neg ends] at joined
    exact absurd joined (by simp)
  have whole : (word ds).continue? c = some (word (ds ++ [c])) := if_pos goesOn
  rw [lex_cons_some whole]
  exact ⟨goesOn, lex_word (ds ++ [c]) cs⟩

/-- A blank in front of a character that goes on with what is being read ends a token. -/
theorem lex_ne_lex_blank (h : sign = '+' ∨ sign = '-') (after : AfterSign sign x)
    (joined : x.joins c = true) (cs : List Char) : x.lex (c :: cs) ≠ x.lex (' ' :: c :: cs) := by
  cases after with
  | single =>
    obtain ⟨rest, first⟩ := lex_single_joined h joined cs
    rw [first, lex_single_separator h (.inl rfl)]
    simp
  | double =>
    rw [joins, continue?_double h c] at joined
    exact absurd joined (by simp)
  | word ds =>
    obtain ⟨-, t, rest, first⟩ := lex_word_joined joined cs
    rw [first, lex_word_separator (.inl rfl)]
    simp
  | quoted isString ds =>
    obtain ⟨t, rest, first⟩ := lex_quoted isString false (c :: cs)
    rw [lex_quoted_separator (.inl rfl), first, first]
    simp
  | lineComment => exact absurd joined (by simp [joins])
  | blockComment => exact absurd joined (by simp [joins])

/-- A parenthesis instead of a sign that goes on with what is being read ends a token. -/
theorem lex_ne_lex_paren (h : sign = '+' ∨ sign = '-') (after : AfterSign sign x)
    (joined : x.joins sign = true) (cs ds : List Char) :
    x.lex (sign :: cs) ≠ x.lex ('(' :: ds) := by
  cases after with
  | single =>
    obtain ⟨rest, first⟩ := lex_single_joined h joined cs
    rw [first, lex_single_separator h (.inr rfl)]
    simp
  | double =>
    rw [joins, continue?_double h sign] at joined
    exact absurd joined (by simp)
  | word es =>
    obtain ⟨-, t, rest, first⟩ := lex_word_joined joined cs
    rw [first, lex_word_separator (.inr rfl)]
    simp
  | quoted isString es =>
    obtain ⟨t, rest, first⟩ := lex_quoted isString false cs
    obtain ⟨t', rest', second⟩ := lex_quoted isString false ds
    have goesOn : (quoted isString false es).continue? sign
        = some (quoted isString false (es ++ [sign])) := by
      rcases h with rfl | rfl <;> cases isString <;> rfl
    have other : sign ≠ '(' := by rcases h with rfl | rfl <;> decide
    rw [lex_cons_some goesOn, lex_quoted_separator (.inr rfl), first, second]
    simp [other]
  | lineComment => exact absurd joined (by simp [joins])
  | blockComment => exact absurd joined (by simp [joins])

/-- A blank and a parenthesis lead to different tokens where a character could have gone on
with what is being read. -/
theorem lex_blank_ne_lex_paren (h : sign = '+' ∨ sign = '-') (after : AfterSign sign x)
    (joined : x.joins c = true) (cs ds : List Char) :
    x.lex (' ' :: c :: cs) ≠ x.lex ('(' :: ds) := by
  obtain ⟨t', rest', paren⟩ : ∃ t rest, (start '(').lex ds = ('(' :: t) :: rest :=
    lex_operator (by decide) [] ds
  cases after with
  | single =>
    obtain ⟨y, goesOn⟩ := Option.isSome_iff_exists.mp joined
    obtain ⟨alone, noComment, other, -⟩ := continue?_single h goesOn
    obtain ⟨t, rest, first⟩ := lex_operator noComment [] cs
    rw [lex_single_separator h (.inl rfl), lex_single_separator h (.inr rfl), lex_start_blank,
      alone, first, paren]
    simp [other]
  | double =>
    rw [joins, continue?_double h c] at joined
    exact absurd joined (by simp)
  | word es =>
    obtain ⟨goesOn, -⟩ := lex_word_joined joined cs
    obtain ⟨t, rest, first⟩ := lex_start_of_continuesWord goesOn cs
    have other : c ≠ '(' := by
      rintro rfl
      rw [continuesWord_separator (.inr rfl)] at goesOn
      exact absurd goesOn (by simp)
    rw [lex_word_separator (.inl rfl), lex_word_separator (.inr rfl), lex_start_blank, first,
      paren]
    simp [other]
  | quoted isString es =>
    obtain ⟨t, rest, first⟩ := lex_quoted isString false (c :: cs)
    obtain ⟨u, rest'', second⟩ := lex_quoted isString false ds
    rw [lex_quoted_separator (.inl rfl), lex_quoted_separator (.inr rfl), first, second]
    simp
  | lineComment => exact absurd joined (by simp [joins])
  | blockComment => exact absurd joined (by simp [joins])

end Separators

end Lexeme

/-! ### Texts after a sign -/

/-- Whether the first character of a text goes on with the last token of the text before it. -/
def tokenGoesOn (front back : String) : Bool :=
  match back.toList with
  | [] => false
  | c :: _ => (lastLexeme front).joins c

/-- Two texts after the same text have the same tokens if reading goes on alike. -/
theorem javaTokens_append_eq_iff (front a b : String) :
    javaTokens (front ++ a) = javaTokens (front ++ b)
      ↔ (lastLexeme front).lex a.toList = (lastLexeme front).lex b.toList := by
  obtain ⟨ts, h⟩ := Lexeme.blank.lex_append front.toList
  have injective : Function.Injective (List.map String.ofList) :=
    List.map_injective_iff.mpr fun _ _ same => String.ofList_injective same
  rw [javaTokens, javaTokens, injective.eq_iff, String.toList_append, String.toList_append, h, h,
    List.append_right_inj]
  rfl

/-- Reading a text that ends in a sign. -/
theorem afterSign_lastLexeme {sign : Char} (h : sign = '+' ∨ sign = '-') {front : String}
    {cs : List Char} (ends : front.toList = cs ++ [sign]) :
    Lexeme.AfterSign sign (lastLexeme front) := by
  rw [lastLexeme, ends, List.foldl_append]
  exact Lexeme.afterSign_next h _

section AfterSign

variable {sign : Char} {front back : String}

/-- A blank between a sign and another text matters exactly if the text goes on with what
the sign belongs to. -/
theorem javaTokens_blank_iff (h : sign = '+' ∨ sign = '-')
    (after : Lexeme.AfterSign sign (lastLexeme front)) (some : back ≠ "") :
    javaTokens (front ++ (" " ++ back)) = javaTokens (front ++ back)
      ↔ tokenGoesOn front back = false := by
  have blank : (" " ++ back).toList = ' ' :: back.toList := String.toList_append
  rw [javaTokens_append_eq_iff, tokenGoesOn, blank]
  cases hback : back.toList with
  | nil => exact absurd (String.toList_eq_nil_iff.mp hback) some
  | cons c cs =>
    constructor
    · intro same
      by_contra joined
      exact Lexeme.lex_ne_lex_blank h after (Bool.not_eq_false _ ▸ joined) cs same.symm
    · intro separate
      exact Lexeme.lex_blank h after separate cs

/-- Parentheses keep a sign apart from one that would go on with what it belongs to. -/
theorem javaTokens_ne_paren (h : sign = '+' ∨ sign = '-')
    (after : Lexeme.AfterSign sign (lastLexeme front)) {cs : List Char}
    (starts : back.toList = sign :: cs) (joined : tokenGoesOn front back = true)
    (inside : String) :
    javaTokens (front ++ back) ≠ javaTokens (front ++ ("(" ++ inside)) := by
  have paren : ("(" ++ inside).toList = '(' :: inside.toList := String.toList_append
  rw [tokenGoesOn, starts] at joined
  rw [Ne, javaTokens_append_eq_iff, starts, paren]
  exact Lexeme.lex_ne_lex_paren h after joined cs inside.toList

/-- Where a blank matters, parentheses instead of it lead to other tokens. -/
theorem javaTokens_blank_ne_paren (h : sign = '+' ∨ sign = '-')
    (after : Lexeme.AfterSign sign (lastLexeme front)) (joined : tokenGoesOn front back = true)
    (inside : String) :
    javaTokens (front ++ (" " ++ back)) ≠ javaTokens (front ++ ("(" ++ inside)) := by
  have blank : (" " ++ back).toList = ' ' :: back.toList := String.toList_append
  have paren : ("(" ++ inside).toList = '(' :: inside.toList := String.toList_append
  rw [Ne, javaTokens_append_eq_iff, blank, paren]
  cases hback : back.toList with
  | nil =>
    rw [tokenGoesOn, hback] at joined
    exact absurd joined (by simp)
  | cons c cs =>
    rw [tokenGoesOn, hback] at joined
    exact Lexeme.lex_blank_ne_lex_paren h after joined cs inside.toList

end AfterSign

end JavaRefactor
