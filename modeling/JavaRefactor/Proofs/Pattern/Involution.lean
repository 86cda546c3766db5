import JavaRefactor.Pattern.Negation

/-!
# Negating a pattern twice

Negation goes into the operands of connectives, into parentheses and into the branches of a
conditional.  What it finds there it exchanges (a literal, a comparison), unwraps (a `!`) or puts
behind a `!`.  The first and the last of these are undone by a second negation.  An unwrapped `!`
comes back only if its operand is of the kind that is put behind a `!`.

`ExprPattern.Reaches` says which positions negation goes to, and `ExprPattern.absorbsNegation`
which patterns are negated without a `!`.  A pattern is the negation of its negation exactly if
no operand of a `!` that negation reaches is one of those (`ExprPattern.negate_negate_eq_iff`).
-/

namespace JavaRefactor

/-! ### Kinds of operators -/

namespace BinaryOperator

/-- Whether the operator compares its operands. -/
def isComparison : BinaryOperator → Bool
  | eq | notEq | lt | le | gt | ge => true
  | _ => false

/-- Whether the operator is one of the connectives `&&`, `||`, `&` and `|`. -/
def isConnective : BinaryOperator → Bool
  | and | or | bitAnd | bitOr => true
  | _ => false

/-- The comparisons are the operators with a complement. -/
theorem isComparison_eq (op : BinaryOperator) : op.isComparison = op.complement?.isSome := by
  cases op <;> rfl

/-- The connectives are the operators with a dual. -/
theorem isConnective_eq (op : BinaryOperator) : op.isConnective = op.dual?.isSome := by
  cases op <;> rfl

/-- A comparison is no connective. -/
theorem isConnective_of_complement? {op complement : BinaryOperator}
    (h : op.complement? = some complement) : op.isConnective = false := by
  cases op with
  | eq | notEq | lt | le | gt | ge => rfl
  | _ => exact absurd h (by simp [complement?])

/-- The dual of a connective has no complement. -/
theorem complement?_dual? {op dual : BinaryOperator} (h : op.dual? = some dual) :
    dual.complement? = none := by
  cases op with
  | and | or | bitAnd | bitOr =>
    obtain rfl := Option.some.inj h
    rfl
  | _ => exact absurd h (by simp [dual?])

end BinaryOperator

namespace ExprPattern

/-! ### Where negation goes -/

/-- Whether a pattern is negated without a `!` in front of it. -/
def absorbsNegation : ExprPattern → Bool
  | .literal (.bool _) => true
  | .unary .not _ => true
  | .binary op _ _ => op.isComparison || op.isConnective
  | .paren _ => true
  | .conditional .. => true
  | _ => false

/-- The second pattern stands in the first at a position to which negation goes. -/
inductive Reaches : ExprPattern → ExprPattern → Prop where
  | root (p : ExprPattern) : Reaches p p
  | left {op : BinaryOperator} {left right q : ExprPattern} (connective : op.isConnective = true)
      (h : Reaches left q) : Reaches (.binary op left right) q
  | right {op : BinaryOperator} {left right q : ExprPattern} (connective : op.isConnective = true)
      (h : Reaches right q) : Reaches (.binary op left right) q
  | paren {inner q : ExprPattern} (h : Reaches inner q) : Reaches (.paren inner) q
  | yes {cond yes no q : ExprPattern} (h : Reaches yes q) : Reaches (.conditional cond yes no) q
  | no {cond yes no q : ExprPattern} (h : Reaches no q) : Reaches (.conditional cond yes no) q

/-- Whether every `!` that negation reaches comes back when its operand is negated. -/
def KeepsNots (p : ExprPattern) : Prop :=
  ∀ operand, Reaches p (.unary .not operand) → operand.absorbsNegation = false

/-- A `!` comes back if its operand is not negated without one. -/
theorem keepsNots_not {operand : ExprPattern} :
    KeepsNots (.unary .not operand) ↔ operand.absorbsNegation = false := by
  constructor
  · intro h
    exact h operand (.root _)
  · intro h other reached
    cases reached with
    | root => exact h

/-- In a connective, every `!` comes back if it does so in both operands. -/
theorem keepsNots_connective {op : BinaryOperator} (h : op.isConnective = true)
    {left right : ExprPattern} :
    KeepsNots (.binary op left right) ↔ KeepsNots left ∧ KeepsNots right := by
  constructor
  · intro keeps
    constructor
    · intro operand reached
      exact keeps operand (.left h reached)
    · intro operand reached
      exact keeps operand (.right h reached)
  · rintro ⟨keepsLeft, keepsRight⟩ operand reached
    cases reached with
    | left _ reached => exact keepsLeft operand reached
    | right _ reached => exact keepsRight operand reached

/-- Negation does not go into the operands of other operators. -/
theorem keepsNots_of_not_connective {op : BinaryOperator} (h : op.isConnective = false)
    (left right : ExprPattern) : KeepsNots (.binary op left right) := by
  intro operand reached
  cases reached with
  | left connective _ => exact absurd connective (by simp [h])
  | right connective _ => exact absurd connective (by simp [h])

/-- In parentheses, every `!` comes back if it does so inside. -/
theorem keepsNots_paren {inner : ExprPattern} : KeepsNots (.paren inner) ↔ KeepsNots inner := by
  constructor
  · intro keeps operand reached
    exact keeps operand (.paren reached)
  · intro keeps operand reached
    cases reached with
    | paren reached => exact keeps operand reached

/-- In a conditional, every `!` comes back if it does so in both branches. -/
theorem keepsNots_conditional {cond yes no : ExprPattern} :
    KeepsNots (.conditional cond yes no) ↔ KeepsNots yes ∧ KeepsNots no := by
  constructor
  · intro keeps
    constructor
    · intro operand reached
      exact keeps operand (.yes reached)
    · intro operand reached
      exact keeps operand (.no reached)
  · rintro ⟨keepsYes, keepsNo⟩ operand reached
    cases reached with
    | yes reached => exact keepsYes operand reached
    | no reached => exact keepsNo operand reached

/-! ### The two negations -/

/-- A pattern is put behind a `!` exactly if it does not absorb its negation. -/
theorem negate_eq_not_iff (p : ExprPattern) :
    p.negate = .unary .not p ↔ p.absorbsNegation = false := by
  fun_cases negate p with
  | case1 value => simp [absorbsNegation]
  | case2 operand =>
    have larger : operand ≠ .unary .not (.unary .not operand) := by
      intro same
      have sizes := congrArg sizeOf same
      simp only [unary.sizeOf_spec] at sizes
      omega
    simp [absorbsNegation, larger]
  | case3 op left right complement hcomplement =>
    simp [absorbsNegation, BinaryOperator.isComparison_eq, hcomplement]
  | case4 op left right dual hdual noComplement =>
    simp [absorbsNegation, BinaryOperator.isConnective_eq, hdual]
  | case5 op left right noDual noComplement =>
    simp [absorbsNegation, BinaryOperator.isComparison_eq, BinaryOperator.isConnective_eq,
      noComplement, noDual, not]
  | case6 inner => simp [absorbsNegation]
  | case7 cond yes no => simp [absorbsNegation]
  | case8 p noBool noNot noBinary noParen noConditional => simp [absorbsNegation, not]

/-- Negating twice gives a pattern back exactly if every `!` that is taken away comes back. -/
theorem negate_negate_iff_keepsNots (p : ExprPattern) : p.negate.negate = p ↔ p.KeepsNots := by
  induction p using negate.induct with
  | case1 value =>
    have leaf : KeepsNots (.literal (.bool value)) := by
      intro operand reached
      cases reached
    simp [negate, leaf]
  | case2 operand => exact (negate_eq_not_iff operand).trans keepsNots_not.symm
  | case3 op left right complement hcomplement =>
    have back := BinaryOperator.complement?_complement? hcomplement
    have keeps := keepsNots_of_not_connective
      (BinaryOperator.isConnective_of_complement? hcomplement) left right
    simp [negate, hcomplement, back, keeps]
  | case4 op left right dual hdual noComplement ihleft ihright =>
    have connective : op.isConnective = true := by
      rw [BinaryOperator.isConnective_eq, hdual, Option.isSome_some]
    have back := BinaryOperator.dual?_dual? hdual
    have noComplement' := BinaryOperator.complement?_dual? hdual
    rw [keepsNots_connective connective, ← ihleft, ← ihright]
    simp [negate, noComplement, hdual, noComplement', back]
  | case5 op left right noDual noComplement =>
    have noConnective : op.isConnective = false := by
      rw [BinaryOperator.isConnective_eq, noDual, Option.isSome_none]
    have keeps := keepsNots_of_not_connective noConnective left right
    simp [negate, noComplement, noDual, not, keeps]
  | case6 inner ih =>
    rw [keepsNots_paren, ← ih]
    simp [negate]
  | case7 cond yes no ihyes ihno =>
    rw [keepsNots_conditional, ← ihyes, ← ihno]
    simp [negate]
  | case8 p noBool noNot noBinary noParen noConditional =>
    have leaf : KeepsNots p := by
      intro operand reached
      -- Negation goes no further than to the pattern itself, which is no `!`.
      cases reached with
      | root => exact absurd rfl (noNot operand)
      | left => exact absurd rfl (noBinary _ _ _)
      | right => exact absurd rfl (noBinary _ _ _)
      | paren => exact absurd rfl (noParen _)
      | yes => exact absurd rfl (noConditional _ _ _)
      | no => exact absurd rfl (noConditional _ _ _)
    have wrapped : p.negate = .unary .not p := by simp [negate, not]
    simp [wrapped, negate, leaf]

/-! ### Patterns without `!` -/

mutual

/-- Whether a `!` stands somewhere in a pattern. -/
def usesNot : ExprPattern → Bool
  | .literal _ | .free _ | .localVar _ | .typeVar _ | .classRef _ | .staticRef ..
  | .primitiveType _ | .repeated _ => false
  | .unary op p => op == .not || usesNot p
  | .binary _ p q | .assign p q | .compoundAssign _ p q | .cast p q | .instanceOf p q
  | .index p q => usesNot p || usesNot q
  | .paren p | .arrayType p | .select p _ _ | .ofForm p _ => usesNot p
  | .conditional p q r => usesNot p || (usesNot q || usesNot r)
  | .call p ps | .newObject p ps | .typeApply p ps => usesNot p || usesNotInEach ps
  | .newArray element dims init =>
    usesNotInOption element || (usesNotInEach dims || usesNotInInit init)
  | .anyOf ps => usesNotInEach ps

/-- Whether a `!` stands in some of several patterns. -/
def usesNotInEach : List ExprPattern → Bool
  | [] => false
  | p :: ps => usesNot p || usesNotInEach ps

/-- Whether a `!` stands in an optional pattern. -/
def usesNotInOption : Option ExprPattern → Bool
  | none => false
  | some p => usesNot p

/-- Whether a `!` stands in an optional list of patterns. -/
def usesNotInInit : Option (List ExprPattern) → Bool
  | none => false
  | some ps => usesNotInEach ps

end

/-- A `!` that negation reaches stands in the pattern. -/
theorem usesNot_of_reaches {p q : ExprPattern} (h : Reaches p q) (used : q.usesNot = true) :
    p.usesNot = true := by
  induction h with
  | root => exact used
  | left _ _ ih | right _ _ ih | paren _ ih | yes _ ih | no _ ih => simp [usesNot, ih used]

/-- A pattern is the negation of its negation exactly if at every position which negation reaches
(through the operands of connectives, parentheses and the branches of conditionals) the operand of
a `!` is no boolean literal, no `!`, no comparison, no connective, no parentheses and no
conditional.  Patterns without `!` are. -/
theorem negate_negate_eq_iff (p : ExprPattern) :
    (p.negate.negate = p ↔
      ∀ operand, Reaches p (.unary .not operand) → operand.absorbsNegation = false) ∧
    (p.usesNot = false → p.negate.negate = p) := by
  refine ⟨negate_negate_iff_keepsNots p, ?_⟩
  intro unused
  refine (negate_negate_iff_keepsNots p).mpr ?_
  intro operand reached
  have used : p.usesNot = true := usesNot_of_reaches reached (by simp [usesNot])
  rw [unused] at used
  exact absurd used Bool.false_ne_true

/-- `x < y ? (b) : b || c`, where no `!` stands. -/
private def withoutNot : ExprPattern :=
  .conditional (.binary .lt (.free "x") (.free "y")) (.paren (.free "b"))
    (.binary .or (.free "b") (.free "c"))

/-- `b && (!c)`, where the operand of the `!` is a variable. -/
private def notVariable : ExprPattern :=
  .binary .and (.free "b") (.paren (.unary .not (.free "c")))

/-- `b && (!(c))`, where the operand of the `!` is in parentheses. -/
private def notParen : ExprPattern :=
  .binary .and (.free "b") (.paren (.unary .not (.paren (.free "c"))))

/-- `x < y ? (b) : b || c` and `b && (!c)` come back, and `b && (!(c))` does not. -/
theorem negate_negate_eq_iff_paren :
    (withoutNot.usesNot = false ∧ withoutNot.negate.negate = withoutNot) ∧
      notVariable.negate.negate = notVariable ∧ notParen.negate.negate ≠ notParen := by
  refine ⟨⟨rfl, (negate_negate_eq_iff withoutNot).2 rfl⟩, ?_, ?_⟩
  · refine (negate_negate_eq_iff notVariable).1.mpr ?_
    intro operand reached
    cases reached with
    | left _ reached => cases reached
    | right _ reached =>
      cases reached with
      | paren reached =>
        cases reached with
        | root => rfl
  · intro same
    have inside : Reaches notParen (.unary .not (.paren (.free "c"))) :=
      .right rfl (.paren (.root _))
    have absorbed := (negate_negate_eq_iff notParen).1.mp same _ inside
    exact absurd absorbed (by decide)

end ExprPattern

end JavaRefactor
