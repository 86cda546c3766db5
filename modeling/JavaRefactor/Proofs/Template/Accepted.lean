import JavaRefactor.Template.Block
import JavaRefactor.Template.Expression

/-!
# What a match consists of

A template matches what has the form of its patterns, with no comment in between, if the types
agree as well (`ExpressionTemplate.match?_eq_some_iff`, `BlockTemplate.matchRun?_eq_some_iff`).
-/

namespace JavaRefactor

variable {c : MatchContext} {b : Bindings}

/-- An expression matches if its form, its comments and its types allow it. -/
theorem ExpressionTemplate.match?_eq_some_iff {t : ExpressionTemplate} {target : Expr} :
    t.match? c target = some b ↔
      ∃ a, t.pattern.unify c.unit.symbols target .empty = some a ∧
        c.unit.hasCommentWithin target.span = false ∧
        t.header.typeCheck c.table a (some (t.result, target.type)) = some b := by
  constructor
  · intro h
    obtain ⟨a, formed, h⟩ := Option.bind_eq_some_iff.mp h
    obtain ⟨silent, checked⟩ := Option.ite_none_left_eq_some.mp h
    exact ⟨a, formed, Bool.eq_false_iff.mpr silent, checked⟩
  · rintro ⟨a, formed, silent, checked⟩
    exact Option.bind_eq_some_iff.mpr ⟨a, formed,
      Option.ite_none_left_eq_some.mpr ⟨Bool.eq_false_iff.mp silent, checked⟩⟩

/-- Statements match if their form, the comments from the first to the last one and their types
allow it. -/
theorem BlockTemplate.matchRun?_eq_some_iff {t : BlockTemplate} {run : List Stmt} :
    t.matchRun? c run = some b ↔
      ∃ a span, StmtPattern.unifyEach c.unit.symbols t.stmts run .empty = some a ∧
        Stmt.runSpan? run = some span ∧ c.unit.hasCommentWithin span = false ∧
        t.header.typeCheck c.table a none = some b := by
  constructor
  · intro h
    obtain ⟨a, formed, h⟩ := Option.bind_eq_some_iff.mp h
    obtain ⟨span, ends, h⟩ := Option.bind_eq_some_iff.mp h
    obtain ⟨silent, checked⟩ := Option.ite_none_left_eq_some.mp h
    exact ⟨a, span, formed, ends, Bool.eq_false_iff.mpr silent, checked⟩
  · rintro ⟨a, span, formed, ends, silent, checked⟩
    exact Option.bind_eq_some_iff.mpr ⟨a, formed, Option.bind_eq_some_iff.mpr ⟨span, ends,
      Option.ite_none_left_eq_some.mpr ⟨Bool.eq_false_iff.mp silent, checked⟩⟩⟩

end JavaRefactor
