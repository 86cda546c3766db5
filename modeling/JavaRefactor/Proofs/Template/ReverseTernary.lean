import JavaRefactor.Proofs.Template.Accepted

/-!
# Conditionals that also match in reverse

A template of a conditional `c ? a : b` may have the option to match `!c ? b : a` as well.  Its
pattern is then a choice between the two, and a choice takes the first alternative that has the
form of the code (`ExprPattern.unify_anyOf`).  Comments and types are looked at afterwards, for
that alternative alone.

So the option adds the matches of the reversed conditional where the code does not have the form
of the conditional itself, and nowhere else (`ExpressionTemplate.match?_ofConditional`).
Code with the form of both, but with types that only fit the reversed one, is not matched:
`ExpressionTemplate.Hides` says when this happens, and `ExpressionTemplate.match?_reverseTernary`
that it is the only way to lose a match.
-/

namespace JavaRefactor

/-- A choice is matched by the first alternative that matches. -/
theorem ExprPattern.unify_anyOf {symbols : SymbolTable} {ps : List ExprPattern} {e : Expr}
    {b : Bindings} : (anyOf ps).unify symbols e b = ps.findSome? fun p => p.unify symbols e b := by
  rw [unify]
  induction ps with
  | nil => rfl
  | cons p ps ih =>
    rw [unifyFirst, List.findSome?_cons, ih]
    cases p.unify symbols e b with
    | some found => rfl
    | none => rfl

namespace TemplateHeader

/-- The same declarations, with conditionals to be matched in reverse as well or not. -/
def withReverseTernary (h : TemplateHeader) (also : Bool) : TemplateHeader :=
  { h with options := { h.options with alsoReverseTernary := also } }

/-- Types are checked in the same way. -/
theorem typeCheck_withReverseTernary (h : TemplateHeader) (also : Bool) (table : ClassTable)
    (b : Bindings) (result : Option (TypePattern × JavaType)) :
    (h.withReverseTernary also).typeCheck table b result = h.typeCheck table b result := by
  rfl

end TemplateHeader

namespace ExpressionTemplate

/-- The template of a conditional, to be matched in reverse as well or not. -/
def ofConditional (h : TemplateHeader) (also : Bool) (cond yes no : ExprPattern)
    (result : TypePattern) : ExpressionTemplate :=
  ofPattern (h.withReverseTernary also) (.conditional cond yes no) result

/-- The first template keeps the second one from matching: the code has the form of the first,
but not its types, and would match the second. -/
def Hides (first second : ExpressionTemplate) (c : MatchContext) (target : Expr) : Prop :=
  (first.pattern.unify c.unit.symbols target .empty).isSome = true ∧
    first.match? c target = none ∧ (second.match? c target).isSome = true

section Reversed

variable (h : TemplateHeader) (cond yes no : ExprPattern) (result : TypePattern)
  (c : MatchContext) (target : Expr)

/-- With the option, code that has the form of the conditional matches like the conditional, and
all other code like the reversed one. -/
theorem match?_ofConditional :
    (ofConditional h true cond yes no result).match? c target =
      if ((ExprPattern.conditional cond yes no).unify c.unit.symbols target .empty).isSome then
        (ofConditional h false cond yes no result).match? c target
      else (ofConditional h false cond.negate no yes result).match? c target := by
  have choice : (ofConditional h true cond yes no result).pattern =
      .anyOf [.conditional cond yes no, .conditional cond.negate no yes] := rfl
  have single (p q r : ExprPattern) :
      (ofConditional h false p q r result).pattern = .conditional p q r := rfl
  rw [match?, match?, match?, choice, single, single, ExprPattern.unify_anyOf,
    List.findSome?_cons]
  cases (ExprPattern.conditional cond yes no).unify c.unit.symbols target .empty with
  | some b => rfl
  | none =>
    rw [List.findSome?_cons, List.findSome?_nil]
    cases (ExprPattern.conditional cond.negate no yes).unify c.unit.symbols target .empty with
    | some b => rfl
    | none => rfl

/-- Let a conditional have the option to match in reverse.  It has the matches that it has without
the option, with the same bindings, and all its other matches are matches of the reversed
conditional.  It matches what one of these two matches, except where the conditional hides the
reversed one. -/
theorem match?_reverseTernary :
    (∀ b, (ofConditional h false cond yes no result).match? c target = some b →
      (ofConditional h true cond yes no result).match? c target = some b) ∧
    (∀ b, (ofConditional h true cond yes no result).match? c target = some b →
      (ofConditional h false cond yes no result).match? c target = some b ∨
        (ofConditional h false cond.negate no yes result).match? c target = some b) ∧
    ((((ofConditional h true cond yes no result).match? c target).isSome = true ↔
        ((ofConditional h false cond yes no result).match? c target).isSome = true ∨
          ((ofConditional h false cond.negate no yes result).match? c target).isSome = true) ↔
      ¬(ofConditional h false cond yes no result).Hides
        (ofConditional h false cond.negate no yes result) c target) := by
  have decided := match?_ofConditional h cond yes no result c target
  -- what the conditional matches has its form, and of such code the reversed one is never tried
  have formed (b : Bindings)
      (matched : (ofConditional h false cond yes no result).match? c target = some b) :
      ((ExprPattern.conditional cond yes no).unify c.unit.symbols target .empty).isSome = true := by
    obtain ⟨a, found, -⟩ := match?_eq_some_iff.mp matched
    exact Option.isSome_iff_exists.mpr ⟨a, found⟩
  refine ⟨?_, ?_, ?_⟩
  · intro b matched
    rw [decided, if_pos (formed b matched), matched]
  · intro b matched
    rw [decided] at matched
    split at matched
    · exact .inl matched
    · exact .inr matched
  · have pattern : (ofConditional h false cond yes no result).pattern =
        .conditional cond yes no := rfl
    rw [decided, Hides, pattern]
    by_cases form :
        ((ExprPattern.conditional cond yes no).unify c.unit.symbols target .empty).isSome = true
    · rw [if_pos form]
      cases (ofConditional h false cond yes no result).match? c target with
      | some b => simp
      | none => simp [form]
    · have unmatched : (ofConditional h false cond yes no result).match? c target = none := by
        refine Option.eq_none_iff_forall_ne_some.mpr ?_
        intro b matched
        exact form (formed b matched)
      rw [if_neg form, unmatched]
      simp [form]

end Reversed

/-! ### A reversed conditional that matches, and one that is hidden -/

/-- What a template with some arguments of primitive types declares. -/
private def numbersHeader (args : List (String × Primitive)) : TemplateHeader where
  options := {}
  typeParams := .empty
  args := args.map fun (name, kind) => (name, .primitive kind)

/-- A variable of a primitive type in code. -/
private def numberNamed (kind : Primitive) (name : String) : Expr :=
  .ident (.ofType (.primitive kind)) name none

/-- The pattern `a < b`. -/
private def lessThan : ExprPattern := .binary .lt (.free "a") (.free "b")

/-- The code `x >= y ? y : x`. -/
private def atLeastElse : Expr :=
  .conditional (.ofType (.primitive .int))
    (.binary (.ofType (.primitive .boolean)) .ge (numberNamed .int "x") (numberNamed .int "y"))
    (numberNamed .int "y") (numberNamed .int "x")

/-- The code `!p ? 2L : 1`. -/
private def notElse : Expr :=
  .conditional (.ofType (.primitive .long))
    (.unary (.ofType (.primitive .boolean)) .not (numberNamed .boolean "p"))
    (.literal (.ofType (.primitive .long)) (.long 2)) (.literal (.ofType (.primitive .int)) (.int 1))

/-- The smaller of two numbers, `a < b ? a : b`, matches `x >= y ? y : x` in reverse.  Where `a` is
an `int` and `b` a `long`, `c ? a : b` does not match `!p ? 2L : 1` in reverse, although `!c ? b : a`
matches it: the code has the form of `c ? a : b` too. -/
theorem match?_reverseTernary_smaller :
    let code : MatchContext := ⟨CompilationUnit.ofDeclarations none [] [] .empty, .rootOnly⟩
    let ints := numbersHeader [("a", .int), ("b", .int)]
    let mixed := numbersHeader [("c", .boolean), ("a", .int), ("b", .long)]
    let smaller : Bindings :=
      { free := [("a", numberNamed .int "x"), ("b", numberNamed .int "y")] }
    ((ofConditional ints false lessThan.negate (.free "b") (.free "a") (.primitive .int)).match? code
          atLeastElse = some smaller ∧
      ((ofConditional ints true lessThan (.free "a") (.free "b") (.primitive .int)).match? code
          atLeastElse).isSome = true) ∧
    (ofConditional mixed false (.free "c") (.free "a") (.free "b") (.primitive .long)).Hides
        (ofConditional mixed false (ExprPattern.negate (.free "c")) (.free "b") (.free "a")
          (.primitive .long)) code notElse ∧
      (ofConditional mixed true (.free "c") (.free "a") (.free "b") (.primitive .long)).match? code
        notElse = none := by
  intro code ints mixed smaller
  have reversed : (ofConditional ints false lessThan.negate (.free "b") (.free "a")
      (.primitive .int)).match? code atLeastElse = some smaller := by
    rfl
  refine ⟨⟨reversed, ?_⟩, ?_⟩
  · have shown := (match?_reverseTernary ints lessThan (.free "a") (.free "b") (.primitive .int)
      code atLeastElse).2.2.mpr ?_
    · refine shown.mpr (.inr ?_)
      rw [reversed, Option.isSome_some]
    · rintro ⟨form, -⟩
      exact absurd form (by decide)
  · have hides : (ofConditional mixed false (.free "c") (.free "a") (.free "b")
        (.primitive .long)).Hides (ofConditional mixed false (ExprPattern.negate (.free "c"))
          (.free "b") (.free "a") (.primitive .long)) code notElse := by
      exact ⟨by rfl, by rfl, by rfl⟩
    refine ⟨hides, Option.not_isSome_iff_eq_none.mp ?_⟩
    intro matched
    have exact := (match?_reverseTernary mixed (.free "c") (.free "a") (.free "b")
      (.primitive .long) code notElse).2.2
    exact exact.mp ⟨fun _ => .inr hides.2.2, fun _ => matched⟩ hides

end ExpressionTemplate

end JavaRefactor
