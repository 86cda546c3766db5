import JavaRefactor.Proofs.Layout.Printed

/-!
# Printed operators keep their structure

The reader gives back what is printed of an expression, up to parentheses and what nodes carry.
The induction is on the expression, and what carries it is that the reader, having read an
expression at the front of a text, reads on as it would after the expression itself
(`Expr.Reads`).  This needs that the text after the expression does not go on with its last
operand: an operand on the left of an operator ends before the operator since it binds more
tightly (`Expr.openLevel?_lt_level`), and one on the right ends where the whole expression ends.
So two expressions that are printed alike are equal up to parentheses
(`Expr.bare_eq_of_print_eq`).
-/

namespace JavaRefactor

open Layout Reader

namespace Expr

/-! ### Reading what is printed -/

/-- The level at which reading the last operand of an expression ends. -/
def openLevel? : Expr → Option Nat
  | binary _ op _ _ => some (op.precedence - 1)
  | unary _ op _ => if op.followsOperand then none else some op.precedence
  | conditional .. => some conditionalLevel
  | assign .. | compoundAssign .. => some assignLevel
  | _ => none

/-- Reading the last operand ends below the level of the expression, but for operators before
their operand and for those that bind more loosely than all binary ones. -/
theorem openLevel?_bounds {e : Expr} {k : Nat} (h : k ∈ e.openLevel?) :
    k < e.precedence ∨ k = e.precedence ∧ (k = 2 ∨ 13 ≤ k) := by
  cases e with
  | binary i op left right =>
    obtain rfl := Option.mem_some_iff.mp h
    obtain ⟨low, -⟩ := op.precedence_bounds
    rw [precedence]
    omega
  | unary i op operand =>
    cases follows : op.followsOperand with
    | true => simp [openLevel?, follows] at h
    | false =>
      simp only [openLevel?, follows, UnaryOperator.precedence] at h
      obtain rfl := Option.mem_some_iff.mp h
      exact .inr ⟨by simp [precedence, UnaryOperator.precedence, follows], .inl rfl⟩
  | conditional | assign | compoundAssign =>
    obtain rfl := Option.mem_some_iff.mp h
    exact .inr ⟨rfl, .inr (by decide)⟩
  | _ => cases h

/-- The last operand of an expression binds no more loosely than the expression. -/
theorem openLevel?_le {e : Expr} {k : Nat} (h : k ∈ e.openLevel?) : k ≤ e.precedence := by
  have := openLevel?_bounds h
  omega

/-- No operand of an expression is left open where connectors need parentheses. -/
theorem openLevel?_of_le_one {e : Expr} (h : e.precedence ≤ 1) : e.openLevel? = none := by
  cases e with
  | binary i op left right =>
    obtain ⟨low, -⟩ := op.precedence_bounds
    rw [precedence] at h
    omega
  | unary i op operand =>
    cases follows : op.followsOperand with
    | true => simp [openLevel?, follows]
    | false => simp [precedence, UnaryOperator.precedence, follows] at h
  | conditional | assign | compoundAssign =>
    simp [precedence, conditionalLevel, assignLevel] at h
  | _ => rfl

/-- The first operand of a connector ends before it. -/
theorem openLevel?_lt_level {e : Expr} {c : Connector} {k : Nat} (h : e.precedence ≤ c.place)
    (hk : k ∈ e.openLevel?) : k < c.level := by
  have bounds := openLevel?_bounds hk
  have place := c.place_bounds
  omega

/-- The reader reads an expression as what it is and then reads on, if the text does not go on
with a word or with the last operand of the expression. -/
def Reads (e : Expr) : Prop :=
  ∀ level rest, e.precedence ≤ level → Ends rest → (∀ k ∈ e.openLevel?, Stops k rest) →
    (Phrase.expr level).read (e.print.toList ++ rest) = (Phrase.after level e.bare).read rest

namespace Reads

variable {e : Expr} {level place : Nat} {rest : List Char}

/-- Everything can stand before a closing character. -/
theorem closed (h : e.Reads) {c : Char} (word : isIdentifierChar c = false)
    (last : ∀ cs, following? (c :: cs) = none) (cs : List Char) :
    (Phrase.expr assignLevel).read (e.print.toList ++ c :: cs) = some (e.bare, c :: cs) := by
  have stops {k : Nat} : Stops k (c :: cs) := stops_of_none (last cs)
  rw [h _ _ e.precedence_le_assignLevel (ends_cons word cs) fun k _ => stops,
    Phrase.read_of_stops stops]

/-- An expression in parentheses is read as what it is, without them. -/
theorem inParens (h : e.Reads) (level : Nat) (rest : List Char) :
    (Phrase.expr level).read ('(' :: (e.print.toList ++ ')' :: rest))
      = (Phrase.after level e.bare).read rest := by
  have inner := h.closed (c := ')') (by decide) (fun _ => rfl) rest
  rw [Phrase.read]
  simp only [opening?, inner, Option.bind_eq_bind, Option.bind_some]

/-- An expression is read in a place that stands for a part which the reader takes. -/
theorem atPlace (h : e.Reads) (le : place ≤ level) (ends : Ends rest)
    (stops : e.precedence ≤ place → ∀ k ∈ e.openLevel?, Stops k rest) :
    (Phrase.expr level).read (e.charsAt place ++ rest) = (Phrase.after level e.bare).read rest := by
  by_cases fits : e.precedence ≤ place
  · rw [charsAt_of_le fits]
    exact h _ _ (fits.trans le) ends (stops fits)
  · rw [charsAt_of_lt (Nat.lt_of_not_le fits), List.cons_append, List.append_assoc]
    exact h.inParens level rest

/-- The last operand of an operator ends where the place of the whole ends. -/
theorem atEnd (h : e.Reads) (ends : Ends rest) (stops : Stops place rest) :
    (Phrase.expr place).read (e.charsAt place ++ rest) = some (e.bare, rest) := by
  rw [h.atPlace le_rfl ends fun fits k hk => stops.mono ((openLevel?_le hk).trans fits),
    Phrase.read_of_stops stops]

/-- An expression is read in a place that holds primary expressions and those with an operator
behind them. -/
theorem atPrimary (h : e.Reads) (tight : place ≤ 1) (le : place ≤ level) (ends : Ends rest) :
    (Phrase.expr level).read (e.charsAt place ++ rest) = (Phrase.after level e.bare).read rest := by
  refine h.atPlace le ends ?_
  intro fits k hk
  rw [openLevel?_of_le_one (fits.trans tight)] at hk
  cases hk

/-- An operator between operands is read if the operands after the first are. -/
theorem connector (h : e.Reads) {c : Connector} (hc : c ∈ Connector.all) (le : c.level ≤ level)
    {e' : Expr} {operands : List Char}
    (read : (Phrase.operands c e.bare).read operands = some (e', rest)) :
    (Phrase.expr level).read (e.charsAt c.place ++ ' ' :: (c.token.toList ++ ' ' :: operands))
      = (Phrase.after level e').read rest := by
  have stops {k : Nat} (hk : k < c.level) :
      Stops k (' ' :: (c.token.toList ++ ' ' :: operands)) := stops_connector hc hk operands
  rw [h.atPlace (c.place_le_level.trans le) (ends_cons (by decide) _) fun fits k hk =>
      stops (openLevel?_lt_level fits hk),
    Phrase.read, following?_connector hc]
  simp only [if_neg (Nat.not_lt.mpr le), read, Option.bind_eq_bind, Option.bind_some]

end Reads

/-! ### Every operator expression is read -/

/-- An operator before its operand is told apart from what the operand starts with. -/
theorem opening?_unary {op : UnaryOperator} {e : Expr} {c : Char}
    (h : op.followsOperand = false) (starts : e.Starts op.precedence c) (cs : List Char) :
    opening? (op.token.toList ++ ((textOf (signGap op e)).toList ++ c :: cs))
      = some (.unary op, c :: cs) := by
  have tight : op.precedence ≤ 2 := by simp [UnaryOperator.precedence, h]
  rw [signGap_eq_leadingSign]
  split
  · cases op with
    | postIncrement | postDecrement => cases h
    | _ => rfl
  · rename_i noGap
    have apart : op.sign? ≠ some c := by
      intro same
      obtain ⟨isSign, -⟩ := UnaryOperator.sign?_eq_some same
      obtain ⟨-, leading⟩ := starts.sign tight isSign
      exact noGap (by simp [same, leading])
    have skip : skipBlank (c :: cs) = c :: cs := by
      unfold skipBlank
      split
      · rename_i heq
        exact absurd (List.cons.inj heq).1 starts.noBlank
      · rfl
    cases op with
    | postIncrement | postDecrement => cases h
    | plus =>
      change opening? ('+' :: c :: cs) = _
      rw [opening?, skip]
      exact fun more heq => apart (congrArg some (List.cons.inj heq).1.symm)
    | minus =>
      change opening? ('-' :: c :: cs) = _
      rw [opening?, skip]
      exact fun more heq => apart (congrArg some (List.cons.inj heq).1.symm)
    | preIncrement | preDecrement | bitNot | not =>
      change some (_, skipBlank (c :: cs)) = _
      rw [skip]

namespace Reads

/-- What is printed as a word is read as what it is. -/
theorem of_word {e : Expr} {word : List Char} (h : e.PrintsWord word) : e.Reads := by
  intro level rest _ ends _
  rw [h.print, Phrase.read, opening?_word h.chars h.nonempty ends, ← h.means]

end Reads

/-- Arguments are read up to the parenthesis behind them. -/
theorem read_argsChars {args : List Expr} (h : ∀ a ∈ args, a.Opens ∧ a.Reads) (callee : Expr)
    (before : List Expr) (rest : List Char) :
    (Phrase.arguments callee before).read (argsChars args ++ ')' :: rest)
      = some (.call .bare callee (before ++ args.map bare), rest) := by
  induction args using argsChars.induct generalizing before with
  | case1 =>
    rw [argsChars, List.nil_append, Phrase.read, List.map_nil, List.append_nil]
  | case2 e =>
    obtain ⟨⟨c, cs, print, -, noParen, -⟩, reads⟩ := h e List.mem_cons_self
    have read := reads.closed (c := ')') (by decide) (fun _ => rfl) rest
    rw [argsChars, Phrase.read, read]
    · rfl
    · intro more heq
      rw [print] at heq
      exact noParen (List.cons.inj heq).1
  | case3 e e' es ih =>
    obtain ⟨⟨c, cs, print, -, noParen, -⟩, reads⟩ := h e List.mem_cons_self
    have read := reads.closed (c := ',') (by decide) (fun _ => rfl)
      (' ' :: (argsChars (e' :: es) ++ ')' :: rest))
    rw [argsChars, List.append_assoc, List.cons_append, List.cons_append, Phrase.read, read]
    · simp [ih fun a ha => h a (List.mem_cons_of_mem e ha)]
    · intro more heq
      rw [print] at heq
      exact noParen (List.cons.inj heq).1

/-- What is built with operators is read as what it is. -/
theorem IsOperatorTree.reads {e : Expr} (h : e.IsOperatorTree) : e.Reads := by
  -- Along the tree: the first operand is read up to the operator, which the reader then takes
  -- instead of what may follow the whole, and the rest is read as a phrase of its own.
  induction h with
  | int i n => exact .of_word (printsWord_int i n)
  | bool i value => exact .of_word (printsWord_bool i value)
  | ident i hname s => exact .of_word (printsWord_ident i hname s)
  | this i => exact .of_word (printsWord_this i)
  | select i _ hname s ih =>
    intro level rest _ ends _
    rw [print_select, List.append_assoc, List.cons_append,
      ih.atPrimary (by decide) (Nat.zero_le _) (ends_cons (by decide) _), Phrase.read]
    simp only [following?, takeWhile_word hname.chars ends, dropWhile_word hname.chars ends,
      String.ofList_toList, bare_select]
  | @call i callee args _ hargs ih ihargs =>
    intro level rest _ ends _
    have read :=
      read_argsChars (fun a ha => ⟨(hargs a ha).opens, ihargs a ha⟩) callee.bare [] rest
    rw [print_call, List.append_assoc, List.cons_append, List.append_assoc,
      ih.atPrimary (by decide) (Nat.zero_le _) (ends_cons (by decide) _), Phrase.read]
    simp only [following?, List.singleton_append, read, List.nil_append, Option.bind_eq_bind,
      Option.bind_some, bare_call]
  | index i _ _ ih ihposition =>
    intro level rest _ ends _
    have position := ihposition.closed (c := ']') (by decide) (fun _ => rfl) rest
    rw [print_index, List.append_assoc, List.cons_append, List.append_assoc,
      ih.atPrimary (by decide) (Nat.zero_le _) (ends_cons (by decide) _), Phrase.read]
    simp only [following?, List.singleton_append, position, Option.bind_eq_bind, Option.bind_some,
      bare_index]
  | paren i _ ih =>
    intro level rest _ _ _
    rw [print_paren, bare_paren, List.cons_append, List.append_assoc]
    exact ih.inParens level rest
  | @unary i op operand hoperand ih =>
    intro level rest le ends stops
    cases follows : op.followsOperand with
    | true =>
      -- it binds as tightly as a selection, so what it stands behind is a primary
      have tight : op.precedence ≤ 1 := by simp [UnaryOperator.precedence, follows]
      have behind := following?_unary follows rest
      rw [print_unary_of_followsOperand i follows, List.append_assoc,
        ih.atPrimary tight le (ends_token follows rest), Phrase.read]
      simp only [behind, bare_unary]
    | false =>
      have stops : Stops op.precedence rest := stops op.precedence (by simp [openLevel?, follows])
      obtain ⟨c, cs, chars, starts⟩ := hoperand.opens.starts op.precedence
      have read := ih.atEnd ends stops
      rw [chars, List.cons_append] at read
      rw [print_unary i follows, chars, List.append_assoc, List.append_assoc, List.cons_append,
        Phrase.read]
      simp only [opening?_unary follows starts, read, Option.bind_eq_bind, Option.bind_some,
        bare_unary]
  | @binary i op left right _ _ ih ihright =>
    intro level rest le ends stops
    have last := ihright.atEnd ends (stops _ rfl)
    have read : (Phrase.operands (.binary op) left.bare).read
        (right.charsAt (op.precedence - 1) ++ rest)
          = some (.binary .bare op left.bare right.bare, rest) := by
      rw [Phrase.read]
      simp only [last, Option.bind_eq_bind, Option.bind_some, Option.pure_def]
    have whole := ih.connector (Connector.binary_mem_all op) le read
    rw [print_binary, bare_binary, List.append_assoc, List.cons_append, List.append_assoc]
    exact whole
  | @instanceOf i j operand name _ hname s ih =>
    intro level rest le ends _
    have word : opening? (name.toList ++ rest) = some (.word name.toList, rest) :=
      opening?_word hname.chars (printsWord_ident j hname s).nonempty ends
    have read : (Phrase.operands .instanceOf operand.bare).read (name.toList ++ rest)
        = some (.instanceOf .bare operand.bare (.ident .bare name none), rest) := by
      rw [Phrase.read]
      simp only [word, ofWord_name hname]
    have whole := ih.connector (c := .instanceOf) (by decide) le read
    rw [print_instanceOf, (printsWord_ident j hname s).print, bare_instanceOf, bare_ident,
      List.append_assoc, List.cons_append, List.append_assoc]
    exact whole
  | @conditional i cond yes no _ _ _ ih ihyes ihno =>
    intro level rest le ends stops
    have last := ihno.atEnd ends (stops _ rfl)
    have middle : (Phrase.expr conditionalLevel).read (yes.charsAt conditionalLevel
        ++ ' ' :: ':' :: ' ' :: (no.charsAt conditionalLevel ++ rest))
          = some (yes.bare, ' ' :: ':' :: ' ' :: (no.charsAt conditionalLevel ++ rest)) :=
      ihyes.atEnd (ends_cons (by decide) _) (stops_of_none rfl)
    have read : (Phrase.operands .conditional cond.bare).read (yes.charsAt conditionalLevel
        ++ ' ' :: ':' :: ' ' :: (no.charsAt conditionalLevel ++ rest))
          = some (.conditional .bare cond.bare yes.bare no.bare, rest) := by
      rw [Phrase.read]
      simp only [middle, last, Option.bind_eq_bind, Option.bind_some, Option.pure_def]
    have whole := ih.connector (c := .conditional) (by decide) le read
    rw [print_conditional, bare_conditional]
    simp only [List.append_assoc, List.cons_append]
    exact whole
  | @assign i target value _ _ ih ihvalue =>
    intro level rest le ends stops
    have last := ihvalue.atEnd ends (stops _ rfl)
    rw [charsAt_assignLevel] at last
    have read : (Phrase.operands .assign target.bare).read (value.print.toList ++ rest)
        = some (.assign .bare target.bare value.bare, rest) := by
      rw [Phrase.read]
      simp only [last, Option.bind_eq_bind, Option.bind_some, Option.pure_def]
    have whole := ih.connector (c := .assign) (by decide) le read
    rw [print_assign, bare_assign, List.append_assoc]
    exact whole
  | @compoundAssign i op hop target value _ _ ih ihvalue =>
    intro level rest le ends stops
    have last := ihvalue.atEnd ends (stops _ rfl)
    rw [charsAt_assignLevel] at last
    have read : (Phrase.operands (.compoundAssign op) target.bare).read (value.print.toList ++ rest)
        = some (.compoundAssign .bare op target.bare value.bare, rest) := by
      rw [Phrase.read]
      simp only [last, Option.bind_eq_bind, Option.bind_some, Option.pure_def]
    have whole := ih.connector (Connector.compoundAssign_mem_all hop) le read
    rw [Connector.token, String.toList_append, List.append_assoc] at whole
    rw [print_compoundAssign, bare_compoundAssign, List.append_assoc, List.cons_append,
      List.append_assoc]
    exact whole

/-! ### Unambiguity -/

/-- The reader takes what is printed for the expression. -/
theorem IsOperatorTree.read_print {e : Expr} (h : e.IsOperatorTree) :
    (Phrase.expr assignLevel).read e.print.toList = some (e.bare, []) := by
  have stops {k : Nat} : Stops k [] := stops_of_none rfl
  have read := h.reads assignLevel [] e.precedence_le_assignLevel (fun _ h => by cases h)
    fun k _ => stops
  rw [List.append_nil] at read
  rw [read, Phrase.read_of_stops stops]

/-- Operator expressions that are printed alike are the same but for parentheses and for the
spans, types and symbols of their nodes. -/
theorem bare_eq_of_print_eq {a b : Expr} (ha : a.IsOperatorTree) (hb : b.IsOperatorTree)
    (same : a.print = b.print) : a.bare = b.bare := by
  have readA := ha.read_print
  rw [same, hb.read_print] at readA
  exact (Prod.mk.inj (Option.some.inj readA)).1.symm

/-- The subtrahend `y - z` of `x - (y - z)` has its parentheses in the tree, or only in the place
where it stands. -/
theorem bare_eq_of_print_eq_sub :
    let typed : NodeInfo := .ofType (.primitive .int)
    let difference : Expr :=
      .binary typed .sub (.ident typed "y" (some 1)) (.ident typed "z" (some 2))
    let a : Expr := .binary typed .sub (.ident typed "x" (some 0)) (.paren typed difference)
    let b : Expr := .binary .bare .sub (.ident .bare "x" none) difference
    a.print = b.print ∧ a.bare = b.bare := by
  intro typed difference a b
  have hx : IsName "x" :=
    ⟨List.all_eq_true.mp (by decide), ⟨'x', [], by decide, by decide⟩, by decide⟩
  have hy : IsName "y" :=
    ⟨List.all_eq_true.mp (by decide), ⟨'y', [], by decide, by decide⟩, by decide⟩
  have hz : IsName "z" :=
    ⟨List.all_eq_true.mp (by decide), ⟨'z', [], by decide, by decide⟩, by decide⟩
  have hdifference : difference.IsOperatorTree := .binary _ _ (.ident _ hy _) (.ident _ hz _)
  have same : a.print = b.print := by decide +kernel
  exact ⟨same, bare_eq_of_print_eq (.binary _ _ (.ident _ hx _) (.paren _ hdifference))
    (.binary _ _ (.ident _ hx _) hdifference) same⟩

end Expr

end JavaRefactor
