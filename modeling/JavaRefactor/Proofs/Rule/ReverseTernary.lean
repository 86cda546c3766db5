import JavaRefactor.Proofs.Matching.Derivation
import JavaRefactor.Proofs.Pattern.Negation
import JavaRefactor.Proofs.Rule.Outermost
import JavaRefactor.Proofs.Template.ReverseTernary

/-!
# Rules about conditionals that also match in reverse

Some templates of a rule about boolean expressions may get the option to match a conditional in
reverse as well.  The rule keeps its matches (`ExpressionTemplate.match?_alsoReversed`).

The negated rule does not.  The negation of a conditional is a conditional, but the negation of a
choice between a conditional and its reverse is a choice under a `!`.  One only matches
conditionals, the other only code with a `!` in front of it.  So what the negated rule matched
stays matched exactly where a template matches that is not a conditional with the option
(`RefactoringRule.create_reversedIfMarked`).
-/

namespace JavaRefactor

namespace ExprPattern

/-- Whether a pattern is a conditional. -/
def isConditional : ExprPattern → Bool
  | conditional .. => true
  | _ => false

/-- A pattern is a conditional if it has a condition and two branches. -/
theorem isConditional_iff {p : ExprPattern} :
    p.isConditional = true ↔ ∃ cond yes no, p = conditional cond yes no := by
  constructor
  · intro h
    cases p with
    | conditional cond yes no => exact ⟨cond, yes, no, rfl⟩
    | _ => cases h
  · rintro ⟨cond, yes, no, rfl⟩
    rfl

/-- Only conditionals have a reverse. -/
theorem orReversed_of_not_isConditional {p : ExprPattern} (h : ¬p.isConditional = true) :
    p.orReversed = p := by
  cases p with
  | conditional => exact absurd rfl h
  | _ => rfl

/-- A conditional is negated in its branches. -/
theorem isConditional_negate {p : ExprPattern} (h : p.isConditional = true) :
    p.negate.isConditional = true := by
  obtain ⟨cond, yes, no, rfl⟩ := isConditional_iff.mp h
  rfl

/-- A choice between a conditional and its reverse is negated as a whole. -/
theorem negate_orReversed {p : ExprPattern} (h : p.isConditional = true) :
    p.orReversed.negate = p.orReversed.not := by
  obtain ⟨cond, yes, no, rfl⟩ := isConditional_iff.mp h
  rfl

variable {symbols : SymbolTable} {p : ExprPattern} {e : Expr} {a b : Bindings}

/-- A conditional matches conditionals only. -/
theorem form_of_isConditional (h : p.isConditional = true)
    (formed : p.unify symbols e a = some b) : e.form = .conditional := by
  obtain ⟨cond, yes, no, rfl⟩ := isConditional_iff.mp h
  cases matches_of_unify _ formed with
  | conditional => rfl

/-- A pattern under a `!` matches unary operations only. -/
theorem form_of_not (formed : p.not.unify symbols e a = some b) : e.form = .unary := by
  cases matches_of_unify _ formed with
  | unary => rfl

end ExprPattern

/-! ### Templates that get the option -/

namespace ExpressionTemplate

variable {t : ExpressionTemplate} {c : MatchContext} {e : Expr} {b : Bindings}

/-- The template with the option to match a conditional in reverse as well. -/
def alsoReversed (t : ExpressionTemplate) : ExpressionTemplate :=
  ofPattern (t.header.withReverseTernary true) t.pattern t.result

/-- The template, with the option if it is marked. -/
def reversedIfMarked (m : ExpressionTemplate × Bool) : ExpressionTemplate :=
  if m.2 then m.1.alsoReversed else m.1

/-- A template that is no conditional is only marked to match in reverse, too. -/
theorem alsoReversed_of_not_isConditional (h : ¬t.pattern.isConditional = true) :
    t.alsoReversed = { t with header := t.header.withReverseTernary true } := by
  have same : t.alsoReversed.pattern = t.pattern := ExprPattern.orReversed_of_not_isConditional h
  calc t.alsoReversed
      = { t.alsoReversed with pattern := t.alsoReversed.pattern } := rfl
    _ = { t with header := t.header.withReverseTernary true } := by
      rw [same]
      rfl

/-- The option does not lose a match of a template. -/
theorem match?_alsoReversed (h : t.match? c e = some b) : t.alsoReversed.match? c e = some b := by
  obtain ⟨a, formed, silent, checked⟩ := match?_eq_some_iff.mp h
  refine match?_eq_some_iff.mpr ⟨a, ?_, silent, ?_⟩
  · change t.pattern.orReversed.unify c.unit.symbols e .empty = some a
    by_cases conditional : t.pattern.isConditional = true
    · obtain ⟨cond, yes, no, whole⟩ := ExprPattern.isConditional_iff.mp conditional
      rw [whole] at formed ⊢
      rw [ExprPattern.orReversed, ExprPattern.unify_anyOf, List.findSome?_cons, formed]
    · rw [ExprPattern.orReversed_of_not_isConditional conditional, formed]
  · exact (TemplateHeader.typeCheck_withReverseTernary ..).trans checked

/-- The option matters to the negation of a conditional only. -/
theorem match?_negated_alsoReversed (h : ¬t.pattern.isConditional = true) :
    t.alsoReversed.negated.match? c e = t.negated.match? c e := by
  rw [alsoReversed_of_not_isConditional h]
  rfl

/-- The negation of a conditional matches conditionals only. -/
theorem form_of_match?_negated (h : t.pattern.isConditional = true)
    (found : t.negated.match? c e = some b) : e.form = .conditional := by
  obtain ⟨_, formed, -⟩ := match?_eq_some_iff.mp found
  exact ExprPattern.form_of_isConditional (ExprPattern.isConditional_negate h) formed

/-- The negation of a conditional with the option matches unary operations only. -/
theorem form_of_match?_negated_alsoReversed (h : t.pattern.isConditional = true)
    (found : t.alsoReversed.negated.match? c e = some b) : e.form = .unary := by
  obtain ⟨a, formed, -⟩ := match?_eq_some_iff.mp found
  have under : t.alsoReversed.negated.pattern = t.pattern.orReversed.not :=
    ExprPattern.negate_orReversed h
  rw [under] at formed
  exact ExprPattern.form_of_not formed

/-- The mark does not change the type of the result. -/
theorem result_reversedIfMarked (m : ExpressionTemplate × Bool) :
    (reversedIfMarked m).result = m.1.result := by
  rw [reversedIfMarked]
  split
  · rfl
  · rfl

/-- The mark does not change what a negated template matches, unless the template is a conditional.
-/
theorem match?_negated_reversedIfMarked {m : ExpressionTemplate × Bool}
    (h : ¬(m.2 = true ∧ m.1.pattern.isConditional = true)) :
    (reversedIfMarked m).negated.match? c e = m.1.negated.match? c e := by
  by_cases also : m.2 = true
  · rw [reversedIfMarked, if_pos also]
    exact match?_negated_alsoReversed fun conditional => h ⟨also, conditional⟩
  · rw [reversedIfMarked, if_neg also]

/-- A choice under a `!` does not match what the negation of a conditional matches. -/
theorem match?_negated_alsoReversed_of_isConditional {other : ExpressionTemplate} {b' : Bindings}
    (h : t.pattern.isConditional = true) (h' : other.pattern.isConditional = true)
    (found : t.negated.match? c e = some b) : other.alsoReversed.negated.match? c e ≠ some b' := by
  intro found'
  have unary : e.form = .unary := form_of_match?_negated_alsoReversed h' found'
  rw [form_of_match?_negated h found] at unary
  cases unary

end ExpressionTemplate

/-! ### Rules that get the option -/

namespace RefactoringRule

open ExpressionTemplate

/-- Whether a rule about expressions matches an expression. -/
def matchesExpr (r : RefactoringRule) (c : MatchContext) (e : Expr) : Bool :=
  match r.body with
  | .expression before _ => anyMatches c before e
  | .block .. => false

/-- One of some changed templates matches if one of the templates does once it is changed. -/
theorem anyMatches_map {α : Type} {c : MatchContext} {e : Expr} {xs : List α}
    {f : α → ExpressionTemplate} :
    anyMatches c (xs.map f) e = true ↔ ∃ x ∈ xs, ((f x).match? c e).isSome = true := by
  rw [anyMatches, List.any_map, List.any_eq_true]
  rfl

section Create

variable {before : List ExpressionTemplate} {after : ExpressionTemplate} (name : String)
  (options : TemplateOptions)

/-- Templates of expressions make a rule. -/
theorem ofTemplates_expressions (nonempty : before ≠ []) :
    ofTemplates name (before.map .expression) (some (.expression after)) options =
      .ok ⟨name, .expression before (some after), options⟩ := by
  cases before with
  | nil => exact absurd rfl nonempty
  | cons first rest =>
    have alike : (Template.expression first :: rest.map Template.expression ++
        [Template.expression after]).find? (fun t => t.kind != (Template.expression first).kind) =
          none := by
      rw [← List.map_cons, ← List.map_singleton, ← List.map_append, List.find?_eq_none,
        List.forall_mem_map]
      intro t _
      exact Bool.eq_false_iff.mp rfl
    have kept : (rest.map Template.expression).filterMap Template.expression? = rest := by
      rw [List.filterMap_map]
      exact List.filterMap_some
    simp only [ofTemplates, List.map_cons, Option.toList_some, alike, RuleBody.ofTemplates,
      List.filterMap_cons, Template.expression?, kept, Option.bind_some]

/-- Boolean templates with a replacement that can be negated make a rule and its negation. -/
theorem create_negatable (nonempty : before ≠ [])
    (boolean : ∀ t ∈ before, t.result.isBoolean = true) (result : after.result.isBoolean = true)
    (also : after.header.options.alsoNegation = true) :
    create name (before.map .expression) (some (.expression after)) options =
      .ok [⟨name, .expression before (some after), options⟩,
        ⟨name, .expression (before.map .negated) (some after.negated), options⟩] := by
  have opposite := (RuleBody.negation_expression also).mpr ⟨⟨boolean, result⟩, rfl⟩
  refine Except.bind_eq_ok.mpr ⟨_, ofTemplates_expressions name options nonempty, ?_⟩
  dsimp only
  rw [opposite]
  rfl

end Create

section Reversed

variable {marked : List (ExpressionTemplate × Bool)} {c : MatchContext} {e : Expr}

/-- Templates match what they matched before some of them got the option. -/
theorem anyMatches_reversedIfMarked (h : anyMatches c (marked.map Prod.fst) e = true) :
    anyMatches c (marked.map reversedIfMarked) e = true := by
  obtain ⟨m, hm, found⟩ := anyMatches_map.mp h
  refine anyMatches_map.mpr ⟨m, hm, ?_⟩
  by_cases also : m.2 = true
  · obtain ⟨b, found⟩ := Option.isSome_iff_exists.mp found
    rw [reversedIfMarked, if_pos also, match?_alsoReversed found, Option.isSome_some]
  · rwa [reversedIfMarked, if_neg also]

/-- What the negated templates match is still matched by one of them if some template matches
that is not a conditional with the option, and only then. -/
theorem anyMatches_negated_reversedIfMarked
    (h : anyMatches c ((marked.map Prod.fst).map .negated) e = true) :
    anyMatches c ((marked.map reversedIfMarked).map .negated) e = true ↔
      ∃ m ∈ marked, ¬(m.2 = true ∧ m.1.pattern.isConditional = true) ∧
        (m.1.negated.match? c e).isSome = true := by
  rw [List.map_map, anyMatches_map] at h ⊢
  constructor
  · rintro ⟨m, hm, found⟩
    by_cases changed : m.2 = true ∧ m.1.pattern.isConditional = true
    · -- The code has a `!` in front, so what matched it before was not a conditional.
      obtain ⟨other, hother, before⟩ := h
      refine ⟨other, hother, ?_, before⟩
      rintro ⟨-, conditional⟩
      obtain ⟨_, before⟩ := Option.isSome_iff_exists.mp before
      obtain ⟨_, found⟩ := Option.isSome_iff_exists.mp found
      rw [Function.comp_apply, reversedIfMarked, if_pos changed.1] at found
      exact match?_negated_alsoReversed_of_isConditional conditional changed.2 before found
    · rw [Function.comp_apply, match?_negated_reversedIfMarked changed] at found
      exact ⟨m, hm, changed, found⟩
  · rintro ⟨m, hm, unchanged, found⟩
    refine ⟨m, hm, ?_⟩
    rwa [Function.comp_apply, match?_negated_reversedIfMarked unchanged]

/-- Let a rule have boolean templates and a replacement that can be negated, and let some templates
get the option to match a conditional in reverse.  The rule keeps its matches.  Its negation keeps
a match exactly if a template matches there that is not a conditional with the option. -/
theorem create_reversedIfMarked {after : ExpressionTemplate} (name : String)
    (options : TemplateOptions) (nonempty : marked ≠ [])
    (boolean : ∀ m ∈ marked, m.1.result.isBoolean = true) (result : after.result.isBoolean = true)
    (also : after.header.options.alsoNegation = true) :
    ∃ plain negation plain' negation' : RefactoringRule,
      create name (marked.map fun m => .expression m.1) (some (.expression after)) options =
        .ok [plain, negation] ∧
      create name (marked.map fun m => .expression (reversedIfMarked m))
        (some (.expression after)) options = .ok [plain', negation'] ∧
      ∀ (c : MatchContext) (e : Expr),
        (plain.matchesExpr c e = true → plain'.matchesExpr c e = true) ∧
        (negation.matchesExpr c e = true →
          (negation'.matchesExpr c e = true ↔
            ∃ m ∈ marked, ¬(m.2 = true ∧ m.1.pattern.isConditional = true) ∧
              (m.1.negated.match? c e).isSome = true)) := by
  have made (f : ExpressionTemplate × Bool → ExpressionTemplate)
      (same : ∀ m, (f m).result = m.1.result) :
      create name (marked.map fun m => .expression (f m)) (some (.expression after)) options =
        .ok [⟨name, .expression (marked.map f) (some after), options⟩,
          ⟨name, .expression ((marked.map f).map .negated) (some after.negated), options⟩] := by
    have booleans : ∀ t ∈ marked.map f, t.result.isBoolean = true := by
      rw [List.forall_mem_map]
      intro m hm
      rw [same]
      exact boolean m hm
    have created := create_negatable name options (mt List.map_eq_nil_iff.mp nonempty) booleans
      result also
    rwa [List.map_map] at created
  refine ⟨_, _, _, _, made Prod.fst fun _ => rfl, made reversedIfMarked result_reversedIfMarked, ?_⟩
  intro c e
  exact ⟨anyMatches_reversedIfMarked, anyMatches_negated_reversedIfMarked⟩

end Reversed

/-! ### A negated rule that loses a match -/

/-- A template with arguments `boolean c`, `int a` and `int b`, which returns a `boolean`. -/
private def onComparison (options : TemplateOptions) (pattern : ExprPattern) :
    ExpressionTemplate where
  header :=
    { options, typeParams := .empty
      args := [("c", .primitive .boolean), ("a", .primitive .int), ("b", .primitive .int)] }
  pattern
  result := .primitive .boolean

/-- The template `c ? a == b : false`. -/
private def equalOrFalse : ExpressionTemplate :=
  onComparison {}
    (.conditional (.free "c") (.binary .eq (.free "a") (.free "b")) (.literal (.bool false)))

/-- The replacement `c && a == b`, which has a negation. -/
private def andEqual : ExpressionTemplate :=
  onComparison { alsoNegation := true }
    (.binary .and (.free "c") (.binary .eq (.free "a") (.free "b")))

/-- The code `x ? y == z : false`, or another one with a comparison and a value like it. -/
private def comparisonOr (op : BinaryOperator) (otherwise : Bool) : Expr :=
  let truth := NodeInfo.ofType (.primitive .boolean)
  let number := NodeInfo.ofType (.primitive .int)
  .conditional truth (.ident truth "x" none)
    (.binary truth op (.ident number "y" none) (.ident number "z" none))
    (.literal truth (.bool otherwise))

/-- A rule that writes `c && a == b` in place of `c ? a == b : false` has a negation, which writes
`!c || a != b` in place of `c ? a != b : true`.  If the rule is to match in reverse as well, it
still matches `x ? y == z : false`, but its negation no longer matches `x ? y != z : true`. -/
theorem create_reversedIfMarked_comparison :
    let code : MatchContext := ⟨CompilationUnit.ofDeclarations none [] [] .empty, .rootOnly⟩
    ([(equalOrFalse, true)] ≠ [] ∧
      (∀ m ∈ [(equalOrFalse, true)], m.1.result.isBoolean = true) ∧
      andEqual.result.isBoolean = true ∧ andEqual.header.options.alsoNegation = true) ∧
    ∃ plain negation plain' negation' : RefactoringRule,
      create "AndEqual" [.expression equalOrFalse] (some (.expression andEqual)) {} =
        .ok [plain, negation] ∧
      create "AndEqual" [.expression equalOrFalse.alsoReversed] (some (.expression andEqual)) {} =
        .ok [plain', negation'] ∧
      plain.matchesExpr code (comparisonOr .eq false) = true ∧
      plain'.matchesExpr code (comparisonOr .eq false) = true ∧
      negation.matchesExpr code (comparisonOr .notEq true) = true ∧
      negation'.matchesExpr code (comparisonOr .notEq true) = false := by
  intro code
  have nonempty : [(equalOrFalse, true)] ≠ [] := List.cons_ne_nil _ _
  have boolean : ∀ m ∈ [(equalOrFalse, true)], m.1.result.isBoolean = true := by
    intro m hm
    rw [List.mem_singleton.mp hm]
    rfl
  have result : andEqual.result.isBoolean = true := rfl
  have also : andEqual.header.options.alsoNegation = true := rfl
  refine ⟨⟨nonempty, boolean, result, also⟩, ?_⟩
  obtain ⟨plain, negation, plain', negation', made, made', found⟩ :=
    create_reversedIfMarked "AndEqual" {} nonempty boolean result also
  have direct : create "AndEqual" [.expression equalOrFalse] (some (.expression andEqual)) {} =
      .ok [⟨"AndEqual", .expression [equalOrFalse] (some andEqual), {}⟩,
        ⟨"AndEqual", .expression [equalOrFalse.negated] (some andEqual.negated), {}⟩] := by
    rfl
  obtain ⟨rfl, rest⟩ := List.cons_eq_cons.mp (Except.ok.inj (made.symm.trans direct))
  obtain rfl := List.singleton_inj.mp rest
  obtain ⟨keeps, -⟩ := found code (comparisonOr .eq false)
  obtain ⟨-, loses⟩ := found code (comparisonOr .notEq true)
  have before : anyMatches code [equalOrFalse] (comparisonOr .eq false) = true := by
    rfl
  have opposite : anyMatches code [equalOrFalse.negated] (comparisonOr .notEq true) = true := by
    rfl
  refine ⟨_, _, plain', negation', made, made', before, keeps before, opposite, ?_⟩
  refine Bool.eq_false_iff.mpr ?_
  intro matched
  obtain ⟨m, hm, unchanged, -⟩ := (loses opposite).mp matched
  rw [List.mem_singleton.mp hm] at unchanged
  exact unchanged ⟨rfl, rfl⟩

end RefactoringRule

end JavaRefactor
