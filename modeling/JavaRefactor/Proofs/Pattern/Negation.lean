import JavaRefactor.Rule.Basic
import JavaRefactor.Proofs.Inference.Instantiation
import Mathlib.Data.Sum.Order

/-!
# What negation means

A boolean pattern stands for code that is evaluated from left to right: `&&`, `||` and the
conditional leave out what the operand before them has decided, all other operators evaluate
both operands.  What is not built from these, from parentheses, comparisons, `!` and boolean
literals is a leaf.  The environment says what value a leaf has, which may depend on everything
that was evaluated before, so leaves can have effects.

The negation of a pattern has the opposite truth value in every environment and evaluates the
same leaves in the same order (`ExprPattern.evaluate_negate`).  It rests on the two tables of
operators: complementary comparisons say the opposite about all values
(`BinaryOperator.compare?_complement?`), and dual connectives become each other when both
operands are negated (`BinaryOperator.dual?_cases`).
-/

namespace JavaRefactor

/-! ### Operators on values -/

namespace BinaryOperator

/-- What a comparison says about two values. -/
def compare? {β : Type} [LinearOrder β] : BinaryOperator → Option (β → β → Bool)
  | eq => some fun a b => decide (a = b)
  | notEq => some fun a b => decide (a ≠ b)
  | lt => some fun a b => decide (a < b)
  | le => some fun a b => decide (a ≤ b)
  | gt => some fun a b => decide (a > b)
  | ge => some fun a b => decide (a ≥ b)
  | _ => none

/-- The truth function of a connective that evaluates both operands. -/
def combine? : BinaryOperator → Option (Bool → Bool → Bool)
  | bitAnd => some (· && ·)
  | bitOr => some (· || ·)
  | bitXor => some (· ^^ ·)
  | _ => none

/-- The truth value of the left operand after which a connective evaluates the right one.  With
the other truth value, the left operand decides. -/
def goesOnAfter? : BinaryOperator → Option Bool
  | and => some true
  | or => some false
  | _ => none

/-- Complementary comparisons say the opposite about all values. -/
theorem compare?_complement? (β : Type) [LinearOrder β] {op complement : BinaryOperator}
    (h : op.complement? = some complement) :
    ∃ holds fails : β → β → Bool, op.compare? = some holds ∧ complement.compare? = some fails ∧
      ∀ a b, fails a b = !holds a b := by
  have opposite {p q : Prop} [Decidable p] [Decidable q] (h : ¬p ↔ q) :
      decide q = !decide p := by
    rw [← decide_not, decide_eq_decide, h]
  cases op with
  | eq =>
    obtain rfl := Option.some.inj h
    exact ⟨_, _, rfl, rfl, fun a b => opposite Iff.rfl⟩
  | notEq =>
    obtain rfl := Option.some.inj h
    exact ⟨_, _, rfl, rfl, fun a b => opposite not_not⟩
  | lt =>
    obtain rfl := Option.some.inj h
    exact ⟨_, _, rfl, rfl, fun a b => opposite not_lt⟩
  | le =>
    obtain rfl := Option.some.inj h
    exact ⟨_, _, rfl, rfl, fun a b => opposite not_le⟩
  | gt =>
    obtain rfl := Option.some.inj h
    exact ⟨_, _, rfl, rfl, fun a b => opposite not_lt⟩
  | ge =>
    obtain rfl := Option.some.inj h
    exact ⟨_, _, rfl, rfl, fun a b => opposite not_le⟩
  | _ => exact absurd h (by simp [complement?])

/-- Dual connectives go on after opposite truth values, or always evaluate both operands and
have dual truth functions. -/
theorem dual?_cases {op dual : BinaryOperator} (h : op.dual? = some dual) :
    (∃ goesOn, op.goesOnAfter? = some goesOn ∧ dual.goesOnAfter? = some !goesOn) ∨
      (op.goesOnAfter? = none ∧ dual.goesOnAfter? = none ∧
        ∃ combine combineDual, op.combine? = some combine ∧ dual.combine? = some combineDual ∧
          ∀ a b, combineDual (!a) (!b) = !combine a b) := by
  cases op with
  | and =>
    obtain rfl := Option.some.inj h
    exact .inl ⟨true, rfl, rfl⟩
  | or =>
    obtain rfl := Option.some.inj h
    exact .inl ⟨false, rfl, rfl⟩
  | bitAnd =>
    obtain rfl := Option.some.inj h
    exact .inr ⟨rfl, rfl, _, _, rfl, rfl, by decide⟩
  | bitOr =>
    obtain rfl := Option.some.inj h
    exact .inr ⟨rfl, rfl, _, _, rfl, rfl, by decide⟩
  | _ => exact absurd h (by simp [dual?])

/-- A comparison is no connective. -/
theorem connective_of_complement? {op complement : BinaryOperator}
    (h : op.complement? = some complement) : op.goesOnAfter? = none ∧ op.combine? = none := by
  cases op with
  | eq | notEq | lt | le | gt | ge => exact ⟨rfl, rfl⟩
  | _ => exact absurd h (by simp [complement?])

end BinaryOperator

namespace ExprPattern

/-! ### Evaluation -/

/-- A value: a truth value, or one of a totally ordered type. -/
abbrev Value (α : Type) : Type := Bool ⊕ₗ α

/-- The value that a truth value is. -/
def Value.ofBool {α : Type} (b : Bool) : Value α := toLex (.inl b)

/-- Whether a value is the truth value `true`. -/
def Value.isTrue {α : Type} (v : Value α) : Bool :=
  match ofLex v with
  | .inl b => b
  | .inr _ => false

/-- The value of a boolean is true if the boolean is. -/
@[simp] theorem Value.isTrue_ofBool {α : Type} (b : Bool) :
    (Value.ofBool b : Value α).isTrue = b := rfl

/-- The values of leaves, each after the leaves that were evaluated before it. -/
abbrev Environment (α : Type) : Type := List ExprPattern → ExprPattern → Value α

variable {α : Type} [LinearOrder α]

/-- The value of a pattern after some leaves, which come before those that it evaluates. -/
def eval (env : Environment α) :
    ExprPattern → List ExprPattern → Value α × List ExprPattern
  | .literal (.bool value), before => (.ofBool value, before)
  | .unary .not operand, before =>
    let v := eval env operand before
    (.ofBool (!v.1.isTrue), v.2)
  | .binary op left right, before =>
    match op.goesOnAfter?, op.combine?, (op.compare? : Option (Value α → Value α → Bool)) with
    | some goesOn, _, _ =>
      let l := eval env left before
      let v := if l.1.isTrue = goesOn then eval env right l.2 else l
      (.ofBool v.1.isTrue, v.2)
    | none, some combine, _ =>
      let l := eval env left before
      let r := eval env right l.2
      (.ofBool (combine l.1.isTrue r.1.isTrue), r.2)
    | none, none, some compare =>
      let l := eval env left before
      let r := eval env right l.2
      (.ofBool (compare l.1 r.1), r.2)
    | none, none, none =>
      (env before (.binary op left right), before ++ [.binary op left right])
  | .paren inner, before => eval env inner before
  | .conditional cond yes no, before =>
    let c := eval env cond before
    if c.1.isTrue then eval env yes c.2 else eval env no c.2
  | p, before => (env before p, before ++ [p])

/-- What the evaluation of a pattern comes to. -/
structure Outcome where
  truth : Bool
  /-- The leaves that have been evaluated, in order. -/
  leaves : List ExprPattern

namespace Outcome

/-- The opposite truth value after the same leaves. -/
def opposite (o : Outcome) : Outcome := { o with truth := !o.truth }

/-- The opposite outcome has the opposite truth. -/
@[simp] theorem opposite_truth (o : Outcome) : o.opposite.truth = !o.truth := rfl

/-- The opposite outcome has evaluated the same leaves. -/
@[simp] theorem opposite_leaves (o : Outcome) : o.opposite.leaves = o.leaves := rfl

end Outcome

/-- The outcome for a pattern that is evaluated after some leaves. -/
def evaluateAfter (env : Environment α) (before : List ExprPattern) (p : ExprPattern) : Outcome :=
  let v := eval env p before
  ⟨v.1.isTrue, v.2⟩

/-- The outcome for a pattern. -/
def evaluate (env : Environment α) (p : ExprPattern) : Outcome := p.evaluateAfter env []

section Outcomes

variable (env : Environment α) (before : List ExprPattern)

/-- A negation has the opposite outcome of its operand. -/
theorem evaluateAfter_not (p : ExprPattern) :
    p.not.evaluateAfter env before = (p.evaluateAfter env before).opposite := by
  rfl

/-- A conditional evaluates the condition and then the branch that this selects. -/
theorem evaluateAfter_conditional (cond yes no : ExprPattern) :
    (conditional cond yes no).evaluateAfter env before =
      let o := cond.evaluateAfter env before
      if o.truth then yes.evaluateAfter env o.leaves else no.evaluateAfter env o.leaves := by
  by_cases yields : (eval env cond before).1.isTrue <;> simp [evaluateAfter, eval, yields]

/-- A connective goes on to its second operand or stops with the outcome of the first. -/
theorem evaluateAfter_of_goesOnAfter? {op : BinaryOperator} {goesOn : Bool}
    (h : op.goesOnAfter? = some goesOn) (left right : ExprPattern) :
    (binary op left right).evaluateAfter env before =
      let o := left.evaluateAfter env before
      if o.truth = goesOn then right.evaluateAfter env o.leaves else o := by
  by_cases go : (eval env left before).1.isTrue = goesOn <;> simp [evaluateAfter, eval, h, go]

/-- An operator on two truth values evaluates both operands and combines what they yield. -/
theorem evaluateAfter_of_combine? {op : BinaryOperator} {combine : Bool → Bool → Bool}
    (both : op.goesOnAfter? = none) (h : op.combine? = some combine)
    (left right : ExprPattern) :
    (binary op left right).evaluateAfter env before =
      let l := left.evaluateAfter env before
      let r := right.evaluateAfter env l.leaves
      ⟨combine l.truth r.truth, r.leaves⟩ := by
  simp only [evaluateAfter, eval, both, h]
  rfl

/-- A comparison and its complement have opposite outcomes. -/
theorem evaluateAfter_of_complement? {op complement : BinaryOperator}
    (h : op.complement? = some complement) (left right : ExprPattern) :
    (binary complement left right).evaluateAfter env before =
      ((binary op left right).evaluateAfter env before).opposite := by
  obtain ⟨both, noCombine⟩ := BinaryOperator.connective_of_complement? h
  obtain ⟨both', noCombine'⟩ :=
    BinaryOperator.connective_of_complement? (BinaryOperator.complement?_complement? h)
  obtain ⟨holds, fails, hholds, hfails, denied⟩ :=
    BinaryOperator.compare?_complement? (Value α) h
  simp only [evaluateAfter, eval, both, noCombine, both', noCombine', hholds, hfails, denied]
  rfl

/-- Dual connectives of operands with opposite outcomes have opposite outcomes. -/
theorem evaluateAfter_of_dual? {op dual : BinaryOperator} (h : op.dual? = some dual)
    {left right left' right' : ExprPattern}
    (hleft : ∀ before, left'.evaluateAfter env before = (left.evaluateAfter env before).opposite)
    (hright : ∀ before,
      right'.evaluateAfter env before = (right.evaluateAfter env before).opposite) :
    (binary dual left' right').evaluateAfter env before =
      ((binary op left right).evaluateAfter env before).opposite := by
  rcases BinaryOperator.dual?_cases h with
    ⟨goesOn, hop, hdual⟩ | ⟨both, both', combine, combineDual, hop, hdual, opposite⟩
  · rw [evaluateAfter_of_goesOnAfter? env before hop,
      evaluateAfter_of_goesOnAfter? env before hdual]
    -- The negated left operand decides exactly when the operand itself does.
    by_cases go : (left.evaluateAfter env before).truth = goesOn
    · simp [hleft, hright, go]
    · simp [hleft, go]
  · rw [evaluateAfter_of_combine? env before both hop,
      evaluateAfter_of_combine? env before both' hdual]
    simp [hleft, hright, opposite, Outcome.opposite]

/-- A pattern and its negation have opposite outcomes, whatever was evaluated before. -/
theorem evaluateAfter_negate (p : ExprPattern) :
    p.negate.evaluateAfter env before = (p.evaluateAfter env before).opposite := by
  induction p using negate.induct generalizing before with
  | case1 value => rfl
  | case2 operand =>
    change operand.evaluateAfter env before = (operand.not.evaluateAfter env before).opposite
    simp [evaluateAfter_not, Outcome.opposite]
  | case3 op left right complement hcomplement =>
    simp only [negate, hcomplement]
    exact evaluateAfter_of_complement? env before hcomplement left right
  | case4 op left right dual hdual noComplement ihleft ihright =>
    simp only [negate, noComplement, hdual]
    exact evaluateAfter_of_dual? env before hdual ihleft ihright
  | case5 op left right noDual noComplement =>
    simp only [negate, noComplement, noDual]
    exact evaluateAfter_not env before _
  | case6 inner ih => exact ih before
  | case7 cond yes no ihyes ihno =>
    simp only [negate, evaluateAfter_conditional, ihyes, ihno]
    split <;> rfl
  | case8 p noBool noNot noBinary noParen noConditional =>
    have wrapped : p.negate = p.not := by simp [negate]
    rw [wrapped]
    exact evaluateAfter_not env before p

/-- Branches can be swapped if the condition is negated. -/
theorem evaluateAfter_conditional_negate (cond yes no : ExprPattern) :
    (conditional cond.negate no yes).evaluateAfter env before =
      (conditional cond yes no).evaluateAfter env before := by
  simp only [evaluateAfter_conditional, evaluateAfter_negate]
  cases hcond : (cond.evaluateAfter env before).truth with
  | true => simp [hcond]
  | false => simp [hcond]

end Outcomes

/-! ### Patterns that agree -/

/-- Negation is exact: it inverts the truth value in every environment and keeps the leaves and
their order.  Patterns that agree in every environment, in their truth values alone or with
their leaves, have negations that agree as well. -/
theorem evaluate_negate (p q : ExprPattern) :
    (∀ env : Environment α, p.negate.evaluate env = (p.evaluate env).opposite) ∧
      ((∀ env : Environment α, (p.evaluate env).truth = (q.evaluate env).truth) →
        ∀ env : Environment α, (p.negate.evaluate env).truth = (q.negate.evaluate env).truth) ∧
      ((∀ env : Environment α, p.evaluate env = q.evaluate env) →
        ∀ env : Environment α, p.negate.evaluate env = q.negate.evaluate env) := by
  have exact (p : ExprPattern) (env : Environment α) :
      p.negate.evaluate env = (p.evaluate env).opposite :=
    evaluateAfter_negate env [] p
  refine ⟨exact p, fun agree env => ?_, fun agree env => ?_⟩
  · rw [exact p, exact q, Outcome.opposite_truth, Outcome.opposite_truth, agree]
  · rw [exact p, exact q, agree]

/-- `!(x < y) && b`. -/
private def notLess : ExprPattern :=
  .binary .and (.not (.paren (.binary .lt (.free "x") (.free "y")))) (.free "b")

/-- `x >= y && b`. -/
private def atLeast : ExprPattern :=
  .binary .and (.binary .ge (.free "x") (.free "y")) (.free "b")

/-- `!(x < y) && b` and `x >= y && b` agree, so `(x < y) || !b` and `x < y || !b` do. -/
theorem evaluate_negate_notLess :
    (∀ env : Environment Nat, notLess.evaluate env = atLeast.evaluate env) ∧
      ∀ env : Environment Nat, notLess.negate.evaluate env = atLeast.negate.evaluate env := by
  have agree (env : Environment Nat) : notLess.evaluate env = atLeast.evaluate env := by
    have left (before : List ExprPattern) :
        (paren (.binary .lt (.free "x") (.free "y"))).not.evaluateAfter env before =
          (binary .ge (.free "x") (.free "y")).evaluateAfter env before := by
      have complement : BinaryOperator.lt.complement? = some .ge := rfl
      rw [evaluateAfter_not, evaluateAfter_of_complement? env before complement]
      rfl
    have goesOn : BinaryOperator.and.goesOnAfter? = some true := rfl
    simp only [notLess, atLeast, evaluate, evaluateAfter_of_goesOnAfter? env _ goesOn, left]
  exact ⟨agree, (evaluate_negate notLess atLeast).2.2 agree⟩

end ExprPattern

/-! ### Negated rules -/

namespace ExpressionTemplate

/-- The negated template of a boolean expression. -/
def negated (t : ExpressionTemplate) : ExpressionTemplate :=
  { t with
    header := { t.header with options := { t.header.options with alsoNegation := false } }
    pattern := t.pattern.negate }

/-- The templates that have a negation are those of boolean expressions. -/
theorem negation_eq_ok_iff {t opposite : ExpressionTemplate} :
    t.negation = .ok opposite ↔ t.result.isBoolean = true ∧ opposite = t.negated := by
  rw [negation]
  constructor
  · intro h
    split at h
    · rename_i boolean
      exact ⟨boolean, (Except.ok.inj h).symm⟩
    · cases h
  · rintro ⟨boolean, rfl⟩
    exact if_pos boolean

/-- Templates can be negated together if each of them can. -/
theorem mapM_negation_eq_ok_iff {ts opposites : List ExpressionTemplate} :
    ts.mapM negation = .ok opposites ↔
      (∀ t ∈ ts, t.result.isBoolean = true) ∧ opposites = ts.map negated := by
  induction ts generalizing opposites with
  | nil =>
    rw [List.mapM_nil, List.map_nil]
    constructor
    · intro h
      exact ⟨by simp, (Except.ok.inj h).symm⟩
    · rintro ⟨-, rfl⟩
      rfl
  | cons t ts ih =>
    rw [List.mapM_cons, List.forall_mem_cons, List.map_cons]
    constructor
    · intro h
      obtain ⟨first, hfirst, h⟩ := Except.bind_eq_ok.mp h
      obtain ⟨rest, hrest, h⟩ := Except.bind_eq_ok.mp h
      obtain ⟨boolean, rfl⟩ := negation_eq_ok_iff.mp hfirst
      obtain ⟨booleans, rfl⟩ := ih.mp hrest
      exact ⟨⟨boolean, booleans⟩, (Except.ok.inj h).symm⟩
    · rintro ⟨⟨boolean, booleans⟩, rfl⟩
      exact Except.bind_eq_ok.mpr ⟨_, negation_eq_ok_iff.mpr ⟨boolean, rfl⟩,
        Except.bind_eq_ok.mpr ⟨_, ih.mpr ⟨booleans, rfl⟩, rfl⟩⟩

end ExpressionTemplate

/-- A body whose replacement asks for a negation has one if all templates can be negated. -/
theorem RuleBody.negation_expression {before : List ExpressionTemplate} {after : ExpressionTemplate}
    {opposite : RuleBody} (also : after.header.options.alsoNegation = true) :
    (expression before (some after)).negation = .ok (some opposite) ↔
      ((∀ t ∈ before, t.result.isBoolean = true) ∧ after.result.isBoolean = true) ∧
        opposite = .expression (before.map .negated) (some after.negated) := by
  rw [negation, if_pos also]
  constructor
  · intro h
    obtain ⟨negated, hnegated, h⟩ := Except.bind_eq_ok.mp h
    obtain ⟨negatedAfter, hafter, h⟩ := Except.bind_eq_ok.mp h
    obtain ⟨booleans, rfl⟩ := ExpressionTemplate.mapM_negation_eq_ok_iff.mp hnegated
    obtain ⟨boolean, rfl⟩ := ExpressionTemplate.negation_eq_ok_iff.mp hafter
    exact ⟨⟨booleans, boolean⟩, (Option.some.inj (Except.ok.inj h)).symm⟩
  · rintro ⟨⟨booleans, boolean⟩, rfl⟩
    exact Except.bind_eq_ok.mpr ⟨_, ExpressionTemplate.mapM_negation_eq_ok_iff.mpr ⟨booleans, rfl⟩,
      Except.bind_eq_ok.mpr ⟨_, ExpressionTemplate.negation_eq_ok_iff.mpr ⟨boolean, rfl⟩, rfl⟩⟩

/-- If the templates to find agree with the one to write, they still do in the negated rule. -/
theorem RuleBody.agree_of_negation {α : Type} [LinearOrder α]
    {before before' : List ExpressionTemplate} {after after' : ExpressionTemplate}
    (h : (expression before (some after)).negation =
      .ok (some (expression before' (some after'))))
    (agree : ∀ t ∈ before, ∀ env : ExprPattern.Environment α,
      t.pattern.evaluate env = after.pattern.evaluate env) :
    ∀ t ∈ before', ∀ env : ExprPattern.Environment α,
      t.pattern.evaluate env = after'.pattern.evaluate env := by
  have also : after.header.options.alsoNegation = true := by
    by_contra other
    rw [negation, if_neg other] at h
    cases h
  obtain ⟨-, whole⟩ := (negation_expression also).mp h
  obtain ⟨rfl, rest⟩ := RuleBody.expression.inj whole
  obtain rfl := Option.some.inj rest
  intro t ht env
  obtain ⟨source, hsource, rfl⟩ := List.mem_map.mp ht
  calc source.pattern.negate.evaluate env
      = (source.pattern.evaluate env).opposite :=
        ExprPattern.evaluateAfter_negate env [] source.pattern
    _ = (after.pattern.evaluate env).opposite := by rw [agree source hsource]
    _ = after.pattern.negate.evaluate env :=
        (ExprPattern.evaluateAfter_negate env [] after.pattern).symm

end JavaRefactor
