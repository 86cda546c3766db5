import JavaRefactor.Proofs.Text.FirstCharacter
import JavaRefactor.Proofs.Token.Lexer

/-!
# Texts with tokens of their own

A text has the same tokens in front of every other text that does not go on with its last token
(`Spells`).  A word needs that no word follows it at once; white space, and a text that ends in
white space or in a separator such as a parenthesis, can stand in front of every text
(`SpellsApart`).  So the tokens of a long text are those of its pieces one after the other.
-/

namespace JavaRefactor

/-- The text has some tokens, and they do not depend on the text behind it if the first character
of that is of some kind. -/
def Spells (next : Char → Bool) (s : String) (ts : List String) : Prop :=
  ∀ t, StartsWith next t → javaTokens (s ++ t) = ts ++ javaTokens t

/-- The text has some tokens whatever stands behind it. -/
def SpellsApart (s : String) (ts : List String) : Prop := Spells (fun _ => true) s ts

/-- Whether a character cannot go on with a word. -/
def endsWord (c : Char) : Bool := !Lexeme.isWordChar c

namespace Spells

variable {next next' : Char → Bool} {s t : String} {ts us : List String}

/-- A text behind one that needs something else than a word to follow. -/
theorem append (hs : Spells next s ts) (ht : Spells next' t us) (starts : StartsWith next t)
    (nonempty : t ≠ "") : Spells next' (s ++ t) (ts ++ us) := by
  intro u hu
  rw [String.append_assoc, hs (t ++ u) (starts.append_left nonempty), ht u hu, List.append_assoc]

/-- The tokens of the text alone. -/
theorem javaTokens_eq (h : Spells next s ts) : javaTokens s = ts := by
  have alone := h "" rfl
  rw [String.append_empty] at alone
  rw [alone]
  exact List.append_nil ts

end Spells

namespace SpellsApart

variable {next : Char → Bool} {s t : String} {ts us : List String}

/-- A text whose tokens depend on nothing behind it has them before characters of some kind. -/
theorem spells (h : SpellsApart s ts) : Spells next s ts :=
  fun t _ => h t (by cases ht : t.toList <;> simp [StartsWith, ht])

/-- A text whose tokens depend on nothing behind it may stand before another one. -/
theorem append (hs : SpellsApart s ts) (ht : Spells next t us) :
    Spells next (s ++ t) (ts ++ us) := by
  intro u hu
  have anything : StartsWith (fun _ => true) (t ++ u) := by
    cases h : (t ++ u).toList <;> simp [StartsWith, h]
  rw [String.append_assoc, hs (t ++ u) anything, ht u hu, List.append_assoc]

/-- The empty text has no tokens. -/
theorem empty : SpellsApart "" [] := fun t _ => by rw [String.empty_append, List.nil_append]

end SpellsApart

/-! ### Separators and white space -/

namespace Lexeme

/-- What no character goes on with ends at once. -/
theorem lex_of_continue?_eq_none {x : Lexeme} (h : ∀ c, x.continue? c = none) (cs : List Char) :
    x.lex cs = x.tokens ++ blank.lex cs := by
  cases cs with
  | nil => exact (List.append_nil _).symm
  | cons c cs => rw [lex_cons_none (h c), lex_cons_none rfl]; rfl

/-- White space or a separator that is no part of a longer one. -/
def standsApart : Lexeme → Bool
  | blank => true
  | operator [d] => d ∈ "(){};,".toList
  | _ => false

/-- No character goes on with white space or a separator. -/
theorem continue?_of_standsApart {x : Lexeme} (h : x.standsApart = true) (c : Char) :
    x.continue? c = none := by
  have noOther : ('/' ∉ "(){};,".toList) ∧ '.' ∉ "(){};,".toList := by decide
  have alone : ∀ p ∈ operatorPrefixes, p.head?.any (· ∈ "(){};,".toList) = true →
      p.length = 1 := by decide +kernel
  match x, h with
  | blank, _ => rfl
  | operator [d], h =>
    have hd : d ∈ "(){};,".toList := of_decide_eq_true h
    have slash : d ≠ '/' := fun same => noOther.1 (same ▸ hd)
    have point : d ≠ '.' := fun same => noOther.2 (same ▸ hd)
    have noPair : [d] ++ [c] ∉ operatorPrefixes := fun hmem =>
      absurd (alone _ hmem h) (by simp)
    rw [continue?, if_neg (by simp [slash]), if_neg (by simp [slash]), if_neg (by simp [point]),
      if_neg noPair]

end Lexeme

/-- A text that ends in white space or in a separator. -/
theorem spellsApart_of_standsApart {s : String} (h : (lastLexeme s).standsApart = true) :
    SpellsApart s (javaTokens s) := by
  intro t _
  obtain ⟨ts, read⟩ := Lexeme.blank.lex_append s.toList
  have whole : Lexeme.blank.lex s.toList = ts ++ (lastLexeme s).tokens := by
    have alone := read []
    rw [List.append_nil] at alone
    exact alone
  have ends := Lexeme.lex_of_continue?_eq_none (Lexeme.continue?_of_standsApart h) t.toList
  rw [javaTokens, javaTokens, javaTokens, String.toList_append, read, whole,
    ← List.map_append, List.append_assoc]
  exact congrArg _ (congrArg _ ends)

/-- A text of white space. -/
def IsWhite (s : String) : Prop := s.toList.all Lexeme.isBlank = true

instance (s : String) : Decidable (IsWhite s) := inferInstanceAs (Decidable (_ = true))

/-- White space side by side is white space. -/
theorem IsWhite.append {s t : String} (hs : IsWhite s) (ht : IsWhite t) : IsWhite (s ++ t) := by
  rw [IsWhite, String.toList_append, List.all_append, hs, ht, Bool.and_self]

/-- White space has no tokens. -/
theorem IsWhite.spellsApart {s : String} (h : IsWhite s) : SpellsApart s [] := by
  intro t _
  have skip (cs ds : List Char) (hcs : cs.all Lexeme.isBlank = true) :
      Lexeme.blank.lex (cs ++ ds) = Lexeme.blank.lex ds := by
    induction cs with
    | nil => rfl
    | cons c cs ih =>
      rw [List.all_cons, Bool.and_eq_true] at hcs
      have blank : Lexeme.start c = .blank := if_pos hcs.1
      rw [List.cons_append, Lexeme.lex_cons_none rfl, blank, ih hcs.2]
      rfl
  rw [javaTokens, javaTokens, String.toList_append, skip _ _ h, List.nil_append]

/-- White space ends a word. -/
theorem IsWhite.startsWith {s : String} (h : IsWhite s) : StartsWith endsWord s := by
  refine .of_forall fun c hc => ?_
  by_contra goesOn
  rw [endsWord, Bool.not_eq_true, Bool.not_eq_false'] at goesOn
  have word := Lexeme.start_of_isWordChar goesOn
  rw [Lexeme.start, if_pos (List.all_eq_true.mp h c hc)] at word
  cases word

/-! ### Words -/

/-- A word that is no number. -/
structure IsWord (s : String) : Prop where
  chars : s.toList.all Lexeme.isWordChar = true
  first : s.toList.head?.any (fun c => !c.isDigit) = true

instance (s : String) : Decidable (IsWord s) :=
  decidable_of_iff (_ ∧ _) ⟨fun h => ⟨h.1, h.2⟩, fun h => ⟨h.chars, h.first⟩⟩

/-- A word starts with a character of identifiers that is no digit, and goes on with such
characters. -/
theorem IsWord.exists_cons {s : String} (h : IsWord s) : ∃ c cs, s.toList = c :: cs ∧
    c.isDigit = false ∧ Lexeme.isWordChar c = true ∧ cs.all Lexeme.isWordChar = true := by
  obtain ⟨chars, first⟩ := h
  cases hs : s.toList with
  | nil =>
    rw [hs] at first
    cases first
  | cons c cs =>
    rw [hs] at chars first
    exact ⟨c, cs, rfl, Bool.not_eq_true' _ |>.mp first, (Bool.and_eq_true ..).mp chars⟩

/-- A word that is no number goes on up to the next character that cannot stand in it. -/
theorem Lexeme.lex_word_append {ws cs ds : List Char} (noNumber : isNumber ws = false)
    (nonempty : ws ≠ []) (hcs : cs.all isWordChar = true)
    (ends : ∀ c ∈ ds.head?, isWordChar c = false) :
    (word ws).lex (cs ++ ds) = (ws ++ cs) :: blank.lex ds := by
  induction cs generalizing ws with
  | nil =>
    cases ds with
    | nil => rw [List.append_nil, List.append_nil]; rfl
    | cons d ds =>
      have stops : (word ws).continue? d = none := by
        simp [continue?, continuesWord, endsInExponent, noNumber, ends d rfl]
      rw [List.nil_append, List.append_nil, lex_cons_none stops, lex_cons_none rfl]
      rfl
  | cons c cs ih =>
    rw [List.all_cons, Bool.and_eq_true] at hcs
    have goesOn : (word ws).continue? c = some (word (ws ++ [c])) := by
      simp [continue?, continuesWord, hcs.1]
    have still : isNumber (ws ++ [c]) = false := by
      obtain ⟨w, ws, rfl⟩ := List.exists_cons_of_ne_nil nonempty
      by_cases point : w = '.'
      · subst point
        exact absurd noNumber (by simp [isNumber])
      · simpa [isNumber, point] using noNumber
    rw [List.cons_append, lex_cons_some goesOn, ih still (by simp) hcs.2]
    simp

/-- A word in front of a text that does not start with a word. -/
theorem IsWord.spells {s : String} (h : IsWord s) : Spells endsWord s [s] := by
  intro t ht
  obtain ⟨c, cs, hs, noDigit, word, others⟩ := h.exists_cons
  have point : c ≠ '.' := by
    rintro rfl
    exact absurd word (by decide)
  have noNumber : Lexeme.isNumber [c] = false := by
    simpa [Lexeme.isNumber, point] using noDigit
  have ends : ∀ d ∈ t.toList.head?, Lexeme.isWordChar d = false := by
    intro d hd
    rw [StartsWith, hd] at ht
    simpa [endsWord] using ht
  have read := Lexeme.lex_word_append noNumber (by simp) others ends
  rw [javaTokens, javaTokens, String.toList_append, hs, List.cons_append,
    Lexeme.lex_cons_none rfl, Lexeme.start_of_isWordChar word, read]
  simp [Lexeme.tokens, ← hs, String.ofList_toList]

end JavaRefactor
