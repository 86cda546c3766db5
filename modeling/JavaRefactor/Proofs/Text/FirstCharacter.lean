import JavaRefactor.Tree.Literal

/-!
# First characters of texts

What a text starts with, if it starts with anything, and how numbers are written: behind a sign,
the text of a number starts with a character of its numeral (`Decimal.startsWith_write`), so a
number starts with a sign exactly if it is negative.
-/

namespace JavaRefactor

/-- Whether the first character of a text, if there is one, is of some kind. -/
def StartsWith (kind : Char → Bool) (s : String) : Prop := s.toList.head?.all kind = true

instance (kind : Char → Bool) (s : String) : Decidable (StartsWith kind s) :=
  inferInstanceAs (Decidable (_ = true))

namespace StartsWith

variable {kind kind' : Char → Bool} {s t : String}

/-- A text of characters of some kind starts with one. -/
theorem of_forall (h : ∀ c ∈ s.toList, kind c = true) : StartsWith kind s := by
  rw [StartsWith]
  cases hs : s.toList with
  | nil => rfl
  | cons c cs => exact h c (hs ▸ List.mem_cons_self)

/-- What follows a text counts only if the text is empty. -/
theorem append (h : StartsWith kind s) (h' : s = "" → StartsWith kind t) :
    StartsWith kind (s ++ t) := by
  rw [StartsWith, String.toList_append]
  cases hs : s.toList with
  | nil => exact h' (String.toList_inj.mp hs)
  | cons c cs =>
    rw [StartsWith, hs] at h
    exact h

/-- A text starts as its first part does, unless that is empty. -/
theorem append_left (h : StartsWith kind s) (nonempty : s ≠ "") : StartsWith kind (s ++ t) :=
  h.append fun empty => absurd empty nonempty

/-- A text that starts with a character of some kind starts with one of a wider kind. -/
theorem mono (h : StartsWith kind s) (le : ∀ c, kind c = true → kind' c = true) :
    StartsWith kind' s := by
  rw [StartsWith] at h ⊢
  cases hs : s.toList with
  | nil => rfl
  | cons c cs =>
    rw [hs] at h
    exact le c h

/-- The first character of a text that is not empty. -/
theorem exists_cons (h : StartsWith kind s) (nonempty : s ≠ "") :
    ∃ c cs, s.toList = c :: cs ∧ kind c = true := by
  cases hs : s.toList with
  | nil => exact absurd (String.toList_inj.mp hs) nonempty
  | cons c cs =>
    rw [StartsWith, hs] at h
    exact ⟨c, cs, rfl, h⟩

end StartsWith

/-! ### Numbers -/

namespace Decimal

/-- The characters of a numeral. -/
def isNumeral (c : Char) : Bool := c.isDigit || c == '.' || c == 'e'

/-- The digits of a number are characters of numerals. -/
theorem isNumeral_of_mem_toDigits {n : Nat} {c : Char} (h : c ∈ Nat.toDigits 10 n) :
    isNumeral c = true := by
  rw [isNumeral, Nat.isDigit_of_mem_toDigits (by decide) (by decide) h]
  rfl

/-- The text of a number starts with a character of numerals. -/
theorem startsWith_repr (n : Nat) : StartsWith isNumeral n.repr :=
  .of_forall fun _ hc => isNumeral_of_mem_toDigits (Nat.toList_repr ▸ hc)

/-- A number without a sign starts with a digit or a mark of its form. -/
theorem startsWith_write (b : Binary) :
    StartsWith isNumeral (Literal.floatStyle.write b.shortest) := by
  have digits {cs : List Char} (h : ∀ c ∈ cs, c ∈ b.shortest.digits ∨ c = '0') :
      StartsWith isNumeral (String.ofList cs) := by
    refine .of_forall fun c hc => ?_
    rw [String.toList_ofList] at hc
    rcases h c hc with hc | rfl
    · exact isNumeral_of_mem_toDigits
        (List.mem_reverse.mp (List.dropWhile_subset _ (List.mem_reverse.mp hc)))
    · decide
  rw [Style.write]
  split
  · rw [Style.positional]
    split
    · exact StartsWith.append_left (by decide : StartsWith isNumeral "0.") (by decide)
    · dsimp only
      split
      · refine .append (digits fun c hc => ?_) fun _ => by decide
        rcases List.mem_append.mp hc with hc | hc
        · exact .inl hc
        · exact .inr (List.eq_of_mem_replicate hc)
      · rw [String.append_assoc]
        refine .append (digits fun c hc => .inl (List.mem_of_mem_take hc)) fun _ => ?_
        exact StartsWith.append_left (by decide : StartsWith isNumeral ".") (by decide)
  · rw [Style.scientific, String.append_assoc, String.append_assoc]
    refine .append (digits fun c hc => .inl (List.mem_of_mem_take hc)) fun _ => ?_
    refine .append ?_ fun _ =>
      StartsWith.append_left (by decide : StartsWith isNumeral "e") (by decide)
    split
    · decide
    · exact StartsWith.append_left (by decide : StartsWith isNumeral ".") (by decide)

/-- Whether a reading is written with a sign. -/
def Reading.isNegative : Reading → Bool
  | .nan => false
  | .infinity negative => negative
  | .zero negative => negative
  | .finite negative _ => negative

end Decimal

/-- A character that is neither a sign nor a blank. -/
def Text.isPlain (c : Char) : Bool := c != '+' && c != '-' && c != ' ' && c != '\t'

open Text

namespace Decimal

/-- Characters of numerals are neither signs nor blanks. -/
theorem isPlain_of_isNumeral {c : Char} (h : isNumeral c = true) : isPlain c = true := by
  have other {d : Char} (hd : isNumeral d = false) : (c != d) = true := by
    refine bne_iff_ne.mpr ?_
    rintro rfl
    exact absurd (h.symm.trans hd) (by decide)
  simp only [isPlain, Bool.and_eq_true]
  exact ⟨⟨⟨other (by decide), other (by decide)⟩, other (by decide)⟩, other (by decide)⟩

/-- The text of a reading is its sign and a text without one. -/
theorem exists_text_eq (r : Reading) :
    ∃ body, Literal.floatStyle.text r = Style.text.sign r.isNegative ++ body ∧
      StartsWith isPlain body := by
  cases r with
  | nan => exact ⟨"NaN", rfl, by decide⟩
  | infinity negative => exact ⟨"inf", rfl, by decide⟩
  | zero negative => exact ⟨"0" ++ ".0", String.append_assoc .., by decide⟩
  | finite negative b => exact ⟨_, rfl, (startsWith_write b).mono fun _ => isPlain_of_isNumeral⟩

/-- The text of an integer is its sign, if it is negative, and then no further sign. -/
theorem exists_int_eq (n : Int) :
    ∃ body, toString n = Style.text.sign (decide (n < 0)) ++ body ∧ StartsWith isPlain body := by
  have nat (m : Nat) : StartsWith isPlain m.repr :=
    (startsWith_repr m).mono fun _ => isPlain_of_isNumeral
  cases n with
  | ofNat m => exact ⟨m.repr, String.empty_append.symm, nat m⟩
  | negSucc m =>
    refine ⟨(m + 1).repr, ?_, nat (m + 1)⟩
    rw [decide_eq_true (Int.negSucc_lt_zero m)]
    rfl

end Decimal

namespace Literal

/-- Whether a literal is written with a sign. -/
def isNegative : Literal → Bool
  | int value | long value => decide (value < 0)
  | float bits => (Decimal.Interchange.single.read bits.toNat).isNegative
  | double bits => (Decimal.Interchange.double.read bits.toNat).isNegative
  | _ => false

/-- The text of a literal is its sign and a text without one. -/
theorem exists_text_eq (l : Literal) :
    ∃ body, l.text = Decimal.Style.text.sign l.isNegative ++ body ∧ StartsWith isPlain body := by
  have marked {s : String} {negative : Bool} (mark : String) (plain : StartsWith isPlain mark)
      (h : ∃ body, s = Decimal.Style.text.sign negative ++ body ∧ StartsWith isPlain body) :
      ∃ body, s ++ mark = Decimal.Style.text.sign negative ++ body ∧ StartsWith isPlain body := by
    obtain ⟨body, rfl, flush⟩ := h
    exact ⟨body ++ mark, String.append_assoc .., flush.append fun _ => plain⟩
  cases l with
  | int value => exact Decimal.exists_int_eq value
  | long value => exact marked "L" (by decide) (Decimal.exists_int_eq value)
  | float bits => exact marked "f" (by decide) (Decimal.exists_text_eq _)
  | double bits => exact Decimal.exists_text_eq _
  | char value =>
    exact ⟨_, String.empty_append.symm,
      congrArg (Option.all _) (congrArg List.head? String.toList_ofList)⟩
  | string value =>
    exact ⟨_, String.empty_append.symm,
      congrArg (Option.all _) (congrArg List.head? String.toList_ofList)⟩
  | bool value => exact ⟨_, String.empty_append.symm, by cases value <;> decide⟩
  | null => exact ⟨_, String.empty_append.symm, by decide⟩

/-- A literal starts with a sign exactly if it is negative. -/
theorem head_text_iff (l : Literal) {sign : Char} (h : sign = '+' ∨ sign = '-') :
    l.text.toList.head? = some sign ↔ sign = '-' ∧ l.isNegative = true := by
  obtain ⟨body, text, plain⟩ := l.exists_text_eq
  have other : body.toList.head? ≠ some sign := by
    intro first
    rw [StartsWith, first] at plain
    rcases h with rfl | rfl
    · exact absurd plain (by decide)
    · exact absurd plain (by decide)
  rw [text]
  cases l.isNegative with
  | false => exact iff_of_false (String.empty_append ▸ other) (by simp)
  | true =>
    rw [String.toList_append]
    exact ⟨fun first => ⟨(Option.some.inj first).symm, rfl⟩, fun ⟨same, _⟩ => same ▸ rfl⟩

end Literal

end JavaRefactor
