import JavaRefactor.Proofs.Token.Lexer
import JavaRefactor.Proofs.Unit.Holes

/-!
# The tokens of a replaced expression

A text edit that puts a new expression in place of an old one keeps what was written around the
old one: its parentheses, and the space between a sign and an operand that starts with the same
sign.  Parentheses that are kept are as good as parentheses in the tree.  The space is not: an
operand that needs it may come in place of one that did not, and the other way round.  Then the
edited text and the rewritten tree have the same tokens only if the operand would not go on with
the token that the sign belongs to (`ExprPlace.SpaceMatters`).
-/

namespace JavaRefactor

open Layout

/-- An expression in some number of parentheses. -/
def Expr.inParens (e : Expr) : Nat → Expr
  | 0 => e
  | n + 1 => .paren (.ofType e.type) (e.inParens n)

/-- The space after the sign before a place is not the one that the new expression needs, and
leaving it out or putting it there changes the tokens. -/
def ExprPlace.SpaceMatters (q : ExprPlace) (front : String) (old new : Expr) (back : String) :
    Prop :=
  old.precedence ≤ q.level ∧ textOf (q.gap new) ≠ textOf (q.gap old) ∧
    tokenGoesOn front (textOf (encloseAt q.level new (new.layout none)) ++ back) = true

instance (q : ExprPlace) (front : String) (old new : Expr) (back : String) :
    Decidable (q.SpaceMatters front old new back) :=
  inferInstanceAs (Decidable (_ ∧ _ ∧ _))

/-- The space matters where `-1` comes in place of `+1` after a `-`. -/
example : ExprPlace.SpaceMatters ⟨UnaryOperator.minus.precedence, some .minus⟩ "int x = -"
    (.unary (.ofType (.primitive .int)) .plus (.literal (.ofType (.primitive .int)) (.int 1)))
    (.unary (.ofType (.primitive .int)) .minus (.literal (.ofType (.primitive .int)) (.int 1)))
    ";" := by
  decide +kernel

/-! ### Signs -/

/-- The operators with a sign stand before their operand, and their token starts and ends in the
sign. -/
theorem UnaryOperator.sign?_eq_some {op : UnaryOperator} {sign : Char}
    (h : op.sign? = some sign) :
    (sign = '+' ∨ sign = '-') ∧ op.followsOperand = false ∧
      (∃ cs, op.token.toList = cs ++ [sign]) ∧ ∃ cs, op.token.toList = sign :: cs := by
  cases op with
  | plus | minus =>
    obtain rfl := Option.some.inj h
    exact ⟨by decide, rfl, ⟨[], rfl⟩, [], rfl⟩
  | preIncrement | preDecrement =>
    obtain rfl := Option.some.inj h
    exact ⟨by decide, rfl, ⟨[_], rfl⟩, [_], rfl⟩
  | _ => exact absurd h (by simp [sign?])

/-- Only unary operations start with a sign. -/
theorem Expr.leadingSign?_eq_some {e : Expr} {sign : Char} (h : e.leadingSign? = some sign) :
    ∃ i op operand, e = .unary i op operand ∧ op.sign? = some sign := by
  cases e with
  | unary i op operand => exact ⟨i, op, operand, rfl, h⟩
  | _ => exact absurd h (by simp [leadingSign?])

/-- What is written for an operand that starts with a sign starts with it. -/
theorem Expr.toList_print_of_leadingSign {e : Expr} {sign : Char}
    (h : e.leadingSign? = some sign) : ∃ cs, e.print.toList = sign :: cs := by
  obtain ⟨i, op, operand, rfl, hop⟩ := leadingSign?_eq_some h
  obtain ⟨-, follows, -, cs, token⟩ := UnaryOperator.sign?_eq_some hop
  refine ⟨cs ++ (textOf (signGap op operand
    ++ encloseAt op.precedence operand (operand.layout none))).toList, ?_⟩
  rw [print, layout, captureOr_none, follows, if_neg Bool.false_ne_true, toText, List.cons_append,
    textOf, String.toList_append, toText, token]
  rfl

namespace ExprPlace

variable {q : ExprPlace} {e : Expr}

/-- There is no space, or it stands between a sign and an operand that starts with it. -/
theorem gap_cases (q : ExprPlace) (e : Expr) :
    q.gap e = [] ∨ q.gap e = [.text " "] ∧ ∃ op sign, q.operator = some op ∧
      op.sign? = some sign ∧ e.leadingSign? = some sign := by
  rw [gap]
  cases q.operator with
  | none => exact .inl rfl
  | some op =>
    show signGap op e = [] ∨ signGap op e = [.text " "] ∧ _
    rw [Expr.signGap_eq_leadingSign]
    split
    · rename_i same
      rw [Bool.and_eq_true, beq_iff_eq] at same
      obtain ⟨sign, hsign⟩ := Option.isSome_iff_exists.mp same.1
      exact .inr ⟨rfl, op, sign, rfl, hsign, same.2 ▸ hsign⟩
    · exact .inl rfl

/-- An operand that is put into parentheses needs no space. -/
theorem gap_of_lt {front : String} (ends : EndsInOperator q front) (h : q.level < e.precedence) :
    q.gap e = [] := by
  rcases q.gap_cases e with none | ⟨-, op, sign, hop, -, hsign⟩
  · exact none
  · obtain ⟨i, op', operand, rfl, hop'⟩ := Expr.leadingSign?_eq_some hsign
    obtain ⟨level, follows, -⟩ := ends op hop
    obtain ⟨-, follows', -⟩ := UnaryOperator.sign?_eq_some hop'
    rw [Expr.precedence, UnaryOperator.precedence, follows', level, UnaryOperator.precedence,
      follows] at h
    exact absurd h (Nat.lt_irrefl _)

/-- What is written for an expression in parentheses is the same in every place. -/
theorem textOf_layout_paren (q : ExprPlace) (i : NodeInfo) (e : Expr) :
    textOf (q.layout none (.paren i e)) = "(" ++ (e.print ++ ")") := by
  have gap : q.gap (.paren i e) = [] := by
    rcases q.gap_cases (.paren i e) with none | ⟨-, op, sign, -, -, hsign⟩
    · exact none
    · exact absurd hsign (by simp [Expr.leadingSign?])
  have primary : ¬ q.level < (Expr.paren i e).precedence := Nat.not_lt_zero _
  rw [layout, gap, encloseAt, if_neg primary, Expr.layout, captureOr_none]
  simp only [List.nil_append, textOf, toText, String.append_empty]
  rfl

/-- What an operator leaves to be read on after it. -/
theorem afterSign {front : String} (ends : EndsInOperator q front) {op : UnaryOperator}
    {sign : Char} (hop : q.operator = some op) (hsign : op.sign? = some sign) :
    Lexeme.AfterSign sign (lastLexeme front) := by
  obtain ⟨-, -, before, rfl⟩ := ends op hop
  obtain ⟨signs, -, ⟨cs, token⟩, -⟩ := UnaryOperator.sign?_eq_some hsign
  have last : (before ++ op.token).toList = before.toList ++ cs ++ [sign] := by
    rw [String.toList_append, token, List.append_assoc]
  exact afterSign_lastLexeme signs last

end ExprPlace

/-! ### A space too many or too few -/

section Spaces

variable {sign : Char} {front body : String} {written : Nat → String}

/-- If parentheses change the tokens wherever a space does, then some way of writing an operand
has the tokens of a text exactly if the one without parentheses has them. -/
theorem exists_tokens_iff {edited : String} {joined : Bool}
    (bare : javaTokens edited = javaTokens (front ++ written 0) ↔ joined = false)
    (wrapped : joined = true → ∀ n, javaTokens edited ≠ javaTokens (front ++ written (n + 1))) :
    (∃ n, javaTokens edited = javaTokens (front ++ written n)) ↔ joined = false := by
  constructor
  · rintro ⟨n, same⟩
    cases n with
    | zero => exact bare.mp same
    | succ n =>
      by_contra separate
      exact wrapped (Bool.not_eq_false _ ▸ separate) n same
  · intro separate
    exact ⟨0, bare.mpr separate⟩

/-- An operand without the space that it needs after a sign has the tokens of what is written
for it, with the space or in parentheses, exactly if it does not go on with what the sign
belongs to. -/
theorem tokens_without_space (h : sign = '+' ∨ sign = '-')
    (after : Lexeme.AfterSign sign (lastLexeme front)) {cs : List Char}
    (starts : body.toList = sign :: cs) (bare : written 0 = " " ++ body)
    (wrapped : ∀ n, ∃ inside, written (n + 1) = "(" ++ inside) :
    (∃ n, javaTokens (front ++ body) = javaTokens (front ++ written n))
      ↔ tokenGoesOn front body = false := by
  have some : body ≠ "" := by
    rintro rfl
    exact absurd starts (by simp)
  refine exists_tokens_iff ?_ ?_
  · rw [bare, eq_comm]
    exact javaTokens_blank_iff h after some
  · intro joined n
    obtain ⟨inside, paren⟩ := wrapped n
    rw [paren]
    exact javaTokens_ne_paren h after starts joined inside

/-- An operand with a space after a sign that it does not need has the tokens of what is written
for it, without the space or in parentheses, exactly if it does not go on with what the sign
belongs to. -/
theorem tokens_with_space (h : sign = '+' ∨ sign = '-')
    (after : Lexeme.AfterSign sign (lastLexeme front)) (some : body ≠ "")
    (bare : written 0 = body) (wrapped : ∀ n, ∃ inside, written (n + 1) = "(" ++ inside) :
    (∃ n, javaTokens (front ++ (" " ++ body)) = javaTokens (front ++ written n))
      ↔ tokenGoesOn front body = false := by
  refine exists_tokens_iff ?_ ?_
  · rw [bare]
    exact javaTokens_blank_iff h after some
  · intro joined n
    obtain ⟨inside, paren⟩ := wrapped n
    rw [paren]
    exact javaTokens_blank_ne_paren h after joined inside

end Spaces

/-! ### Replacing an expression -/

section Replacement

variable {q : ExprPlace} {front back : String} {old new : Expr}

/-- What an expression that needs no parentheses and no space is written as. -/
theorem ExprPlace.textOf_layout (q : ExprPlace) (e : Expr) :
    textOf (q.layout none e)
      = textOf (q.gap e) ++ textOf (encloseAt q.level e (e.layout none)) := by
  rw [layout, textOf_append]

/-- An expression is enclosed in parentheses where its place asks for it, and else printed bare. -/
theorem Expr.textOf_encloseAt (level : Nat) (e : Expr) :
    textOf (encloseAt level e (e.layout none))
      = if level < e.precedence then "(" ++ (e.print ++ ")") else e.print := by
  rw [encloseAt]
  split
  · rw [textOf, textOf, textOf, textOf, String.append_empty]
    rfl
  · rw [textOf_singleton]
    rfl

/-- In parentheses that are kept, the edit writes the new expression in one or two pairs of
parentheses. -/
theorem textOf_kept_parens (q : ExprPlace) (new : Expr) :
    ∃ n, "(" ++ (textOf (encloseAt q.level new (new.layout none)) ++ ")")
      = textOf (q.layout none (new.inParens n)) := by
  by_cases loose : q.level < new.precedence
  · refine ⟨2, ?_⟩
    have inner : (new.inParens 1).print = "(" ++ (new.print ++ ")") := by
      have whole := ExprPlace.textOf_layout_paren .any (.ofType new.type) new
      rw [ExprPlace.layout_any, textOf, textOf, String.append_empty] at whole
      exact whole
    rw [Expr.inParens, ExprPlace.textOf_layout_paren, inner, Expr.textOf_encloseAt, if_pos loose]
  · refine ⟨1, ?_⟩
    rw [Expr.inParens, ExprPlace.textOf_layout_paren, Expr.inParens, Expr.textOf_encloseAt,
      if_neg loose]

/-- Where the parentheses of the old expression stay, the edit reads as the new expression in
one or two pairs of parentheses. -/
theorem exists_tokens_of_loose (ends : EndsInOperator q front) (loose : q.level < old.precedence) :
    ∃ n, javaTokens (front ++ textOf (q.opening old)
          ++ textOf (encloseAt q.level new (new.layout none)) ++ textOf (q.closing old) ++ back)
        = javaTokens (front ++ textOf (q.layout none (new.inParens n)) ++ back) := by
  obtain ⟨n, same⟩ := textOf_kept_parens q new
  refine ⟨n, ?_⟩
  rw [ExprPlace.opening, ExprPlace.closing, ExprPlace.gap_of_lt ends loose, if_pos loose,
    if_pos loose, ← same]
  simp only [List.nil_append, textOf, toText, String.append_empty, String.append_assoc]

/-- Where nothing but the space before the old expression stays, some way of writing the new
expression has the tokens of the edit unless the space is another one and matters. -/
theorem exists_tokens_gap_iff (ends : EndsInOperator q front) {body : String}
    (whole : body = textOf (encloseAt q.level new (new.layout none)) ++ back) (some : body ≠ "") :
    (∃ n, javaTokens (front ++ (textOf (q.gap old) ++ body))
        = javaTokens (front ++ (textOf (q.layout none (new.inParens n)) ++ back)))
      ↔ (textOf (q.gap new) ≠ textOf (q.gap old) → tokenGoesOn front body = false) := by
  have bare : textOf (q.layout none (new.inParens 0)) ++ back = textOf (q.gap new) ++ body := by
    rw [Expr.inParens, ExprPlace.textOf_layout, whole, String.append_assoc]
  have wrapped (n : Nat) :
      ∃ inside, textOf (q.layout none (new.inParens (n + 1))) ++ back = "(" ++ inside := by
    refine ⟨(new.inParens n).print ++ ")" ++ back, ?_⟩
    rw [Expr.inParens, ExprPlace.textOf_layout_paren]
    simp only [String.append_assoc]
  have agree (same : q.gap new = q.gap old) :
      (∃ n, javaTokens (front ++ (textOf (q.gap old) ++ body))
          = javaTokens (front ++ (textOf (q.layout none (new.inParens n)) ++ back)))
        ↔ (textOf (q.gap new) ≠ textOf (q.gap old) → tokenGoesOn front body = false) := by
    refine iff_of_true ⟨0, ?_⟩ ?_
    · rw [bare, same]
    · intro differ
      exact absurd (congrArg textOf same) differ
  have blank : textOf [.text " "] = " " := rfl
  have nothing : textOf [] = "" := rfl
  rcases q.gap_cases old with oldGap | ⟨oldGap, op, sign, hop, hsign, -⟩
  · rcases q.gap_cases new with newGap | ⟨newGap, op, sign, hop, hsign, leading⟩
    · exact agree (newGap.trans oldGap.symm)
    · -- the new expression needs a space that the edit does not write
      have tight : ¬ q.level < new.precedence := by
        intro loose
        exact absurd ((ExprPlace.gap_of_lt ends loose).symm.trans newGap) (by simp)
      obtain ⟨cs, starts⟩ := Expr.toList_print_of_leadingSign leading
      have starts : body.toList = sign :: (cs ++ back.toList) := by
        rw [whole, Expr.textOf_encloseAt, if_neg tight, String.toList_append, starts]
        rfl
      have differ : " " ≠ "" := by decide
      rw [newGap, blank] at bare
      rw [newGap, oldGap, blank, nothing, String.empty_append, forall_prop_of_true differ]
      exact tokens_without_space (UnaryOperator.sign?_eq_some hsign).1
        (ExprPlace.afterSign ends hop hsign) starts bare wrapped
  · rcases q.gap_cases new with newGap | ⟨newGap, -⟩
    · -- the edit keeps a space that the new expression does not need
      have differ : "" ≠ " " := by decide
      rw [newGap, nothing, String.empty_append] at bare
      rw [newGap, oldGap, blank, nothing, forall_prop_of_true differ]
      exact tokens_with_space (UnaryOperator.sign?_eq_some hsign).1
        (ExprPlace.afterSign ends hop hsign) some bare wrapped
    · exact agree (newGap.trans oldGap.symm)

/-- The text with a new expression edited in place of an old one has the tokens of the tree with
the new expression, in some number of parentheses, in place of the old one, unless a space
after a sign matters. -/
theorem tokens_edited_iff (ends : EndsInOperator q front) (more : back ≠ "") :
    (∃ n, javaTokens (front ++ textOf (q.opening old)
          ++ textOf (encloseAt q.level new (new.layout none)) ++ textOf (q.closing old) ++ back)
        = javaTokens (front ++ textOf (q.layout none (new.inParens n)) ++ back))
      ↔ ¬ q.SpaceMatters front old new back := by
  by_cases loose : q.level < old.precedence
  · have fine : ¬ q.SpaceMatters front old new back := by
      intro matters
      exact absurd loose (Nat.not_lt.mpr matters.1)
    exact iff_of_true (exists_tokens_of_loose ends loose) fine
  · have some : textOf (encloseAt q.level new (new.layout none)) ++ back ≠ "" := by
      have whole := append_ne_empty more (textOf (encloseAt q.level new (new.layout none))) ""
      rw [String.append_empty] at whole
      exact whole
    have edited : front ++ textOf (q.opening old)
        ++ textOf (encloseAt q.level new (new.layout none)) ++ textOf (q.closing old) ++ back
          = front ++ (textOf (q.gap old)
            ++ (textOf (encloseAt q.level new (new.layout none)) ++ back)) := by
      rw [ExprPlace.opening, ExprPlace.closing, if_neg loose, if_neg loose, List.append_nil, textOf,
        String.append_empty]
      simp only [String.append_assoc]
    rw [edited]
    simp only [String.append_assoc]
    rw [exists_tokens_gap_iff ends rfl some, ExprPlace.SpaceMatters,
      and_iff_right (Nat.le_of_not_lt loose), not_and, Bool.not_eq_true]

end Replacement

end JavaRefactor
