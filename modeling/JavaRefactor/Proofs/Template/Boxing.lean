import JavaRefactor.Proofs.Inference.Boxing
import JavaRefactor.Proofs.Template.Accepted
import JavaRefactor.Proofs.Template.TypeCheck

/-!
# Templates without boxing

The option that forbids boxing only removes matches.  The form of a match does not depend on it,
and a check that accepts the types of a match without boxing accepts them with it, and binds the
type parameters alike (`TemplateHeader.typeCheck_withAutoboxing`).
-/

namespace JavaRefactor

/-- The same declarations, with boxing allowed or forbidden. -/
def TemplateHeader.withAutoboxing (h : TemplateHeader) (allowed : Bool) : TemplateHeader :=
  { h with options := { h.options with noAutoboxing := !allowed } }

/-- The same template, with boxing allowed or forbidden. -/
def ExpressionTemplate.withAutoboxing (t : ExpressionTemplate) (allowed : Bool) :
    ExpressionTemplate :=
  { t with header := t.header.withAutoboxing allowed }

/-- The same template, with boxing allowed or forbidden. -/
def BlockTemplate.withAutoboxing (t : BlockTemplate) (allowed : Bool) : BlockTemplate :=
  { t with header := t.header.withAutoboxing allowed }

/-- A match whose types are accepted without boxing is accepted with it, and the type parameters
stand for the same types. -/
theorem TemplateHeader.typeCheck_withAutoboxing {h : TemplateHeader} {table : ClassTable}
    {a b : Bindings} {result : Option (TypePattern × JavaType)}
    (accepted : (h.withAutoboxing false).typeCheck table a result = some b) :
    (h.withAutoboxing true).typeCheck table a result = some b := by
  obtain ⟨first, arguments, found, hfirst, harguments, hfound, checked⟩ :=
    typeCheck_eq_some_iff.mp accepted
  have boxed : (InferenceContext.mk table true (h.unbound a)).instantiate
      ((first ++ arguments).map Prod.fst) (.primitive .void)
      ((first ++ arguments).map Prod.snd) = .ok found :=
    InferenceContext.instantiate_of_withBoxing_false hfound
  exact typeCheck_eq_some_iff.mpr ⟨first, arguments, found, hfirst, harguments, boxed, checked⟩

/-- Forbidding boxing only removes matches.  An instantiation that inference finds without boxing is
the one that it finds with boxing, and what a template matches without boxing, an expression or a
run of statements, it matches with boxing under the same bindings. -/
theorem match_withAutoboxing :
    (∀ (c : InferenceContext) (params : List JavaType) (ret : JavaType) (actuals : List JavaType)
      (found : InferenceContext.Instantiation),
      (c.withBoxing false).instantiate params ret actuals = .ok found →
        (c.withBoxing true).instantiate params ret actuals = .ok found) ∧
    (∀ (t : ExpressionTemplate) (c : MatchContext) (target : Expr) (b : Bindings),
      (t.withAutoboxing false).match? c target = some b →
        (t.withAutoboxing true).match? c target = some b) ∧
    ∀ (t : BlockTemplate) (c : MatchContext) (run : List Stmt) (b : Bindings),
      (t.withAutoboxing false).matchRun? c run = some b →
        (t.withAutoboxing true).matchRun? c run = some b := by
  refine ⟨fun c params ret actuals found h => ?_, fun t c target b h => ?_,
    fun t c run b h => ?_⟩
  · exact InferenceContext.instantiate_of_withBoxing_false h
  · obtain ⟨a, formed, silent, checked⟩ := ExpressionTemplate.match?_eq_some_iff.mp h
    exact ExpressionTemplate.match?_eq_some_iff.mpr
      ⟨a, formed, silent, TemplateHeader.typeCheck_withAutoboxing checked⟩
  · obtain ⟨a, span, formed, ends, silent, checked⟩ := BlockTemplate.matchRun?_eq_some_iff.mp h
    exact BlockTemplate.matchRun?_eq_some_iff.mpr
      ⟨a, span, formed, ends, silent, TemplateHeader.typeCheck_withAutoboxing checked⟩

/-- A header with a parameter `T` and an argument `x` of that type. -/
private def variableHeader : TemplateHeader where
  options := {}
  typeParams := TypeParameters.empty.declare "T"
  args := [("x", .var "T")]

/-- The variable `o` in code. -/
private def rootVariable : Expr := .ident (.ofType .object) "o" none

/-- The argument and its type for a variable, as an expression, and as a statement. -/
theorem match_withAutoboxing_variable :
    let c : MatchContext := ⟨CompilationUnit.ofDeclarations none [] [] .empty, .rootOnly⟩
    let inference : InferenceContext := ⟨c.table, true, ["T"]⟩
    let found : InferenceContext.Instantiation := ⟨[.object], .object, [("T", .object)]⟩
    let whole : ExpressionTemplate := ⟨variableHeader, .free "x", .var "T"⟩
    let statement : BlockTemplate := ⟨variableHeader, [.expr (.free "x")]⟩
    let run : List Stmt := [.expr .synthetic rootVariable]
    let b : Bindings := { free := [("x", rootVariable)], types := [("T", ⟨.object, none⟩)] }
    ((inference.withBoxing false).instantiate [.freeVariable "T"] (.freeVariable "T") [.object] =
        .ok found ∧
      (inference.withBoxing true).instantiate [.freeVariable "T"] (.freeVariable "T") [.object] =
        .ok found) ∧
    ((whole.withAutoboxing false).match? c rootVariable = some b ∧
      (whole.withAutoboxing true).match? c rootVariable = some b) ∧
    (statement.withAutoboxing false).matchRun? c run = some b ∧
      (statement.withAutoboxing true).matchRun? c run = some b := by
  intro c inference found whole statement run b
  have instantiated : (inference.withBoxing false).instantiate [.freeVariable "T"]
      (.freeVariable "T") [.object] = .ok found := by rfl
  have matched : (whole.withAutoboxing false).match? c rootVariable = some b := by rfl
  have matchedRun : (statement.withAutoboxing false).matchRun? c run = some b := by rfl
  obtain ⟨instantiations, expressions, runs⟩ := match_withAutoboxing
  exact ⟨⟨instantiated, instantiations _ _ _ _ _ instantiated⟩,
    ⟨matched, expressions _ _ _ _ matched⟩, matchedRun, runs _ _ _ _ matchedRun⟩

end JavaRefactor
