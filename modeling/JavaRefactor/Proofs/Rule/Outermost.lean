import JavaRefactor.Proofs.Rule.Expression
import Mathlib.Data.List.Forall2

/-!
# A rule about expressions finds the outermost matches

An occurrence of an expression in a unit is the expression with the expressions that it
stands in.  `CompilationUnit.occurrences` lists the occurrences of the fields and the method
bodies, each before those inside it; their expressions are `CompilationUnit.exprs`
(`CompilationUnit.map_expr_occurrences`).

An occurrence is outermost if some template matches it and no template matches an expression
that it stands in.  Below a match nothing is outermost (`filter_isOutermost_of_match`), and
where nothing around an expression matches, the scan of the expression reports the outermost
occurrences in it (`forall₂_scanExpr`).  So the matches of a rule in a unit are its outermost
occurrences, in their order (`RefactoringRule.scan_outermost`).
-/

namespace JavaRefactor

/-- An expression in a unit, with the expressions that it stands in. -/
structure Occurrence where
  expr : Expr
  /-- The expressions around this one, from the inside out. -/
  around : List Expr

namespace Expr

/-- The occurrences in an expression that stands in some others, each before those inside
it. -/
def occurrences (around : List Expr) (e : Expr) : List Occurrence :=
  ⟨e, around⟩ :: e.children.attach.flatMap fun c => occurrences (e :: around) c.1
termination_by sizeOf e
decreasing_by exact sizeOf_lt_of_mem_children c.2

/-- The occurrences in an expression are the expression and those in its children. -/
theorem occurrences_eq (around : List Expr) (e : Expr) :
    e.occurrences around = ⟨e, around⟩ :: e.children.flatMap (occurrences (e :: around)) := by
  rw [occurrences]
  simp [List.flatMap]

/-- The occurrences in an expression are those of its nodes. -/
theorem map_expr_occurrences (around : List Expr) (e : Expr) :
    (e.occurrences around).map Occurrence.expr = e.nodes := by
  induction e using Expr.induction generalizing around with
  | step e ih =>
    have inner : e.children.flatMap (fun c => (occurrences (e :: around) c).map Occurrence.expr)
        = e.children.flatMap nodes :=
      List.flatMap_congr fun c hc => ih c hc (e :: around)
    rw [occurrences_eq, nodes_eq, List.map_cons, List.map_flatMap, inner]

end Expr

namespace Stmt

/-- The occurrences in a statement, in source order. -/
def occurrences (s : Stmt) : List Occurrence :=
  s.children.attach.flatMap fun
    | ⟨.expr e, _⟩ => e.occurrences []
    | ⟨.stmt c, _⟩ => occurrences c
termination_by sizeOf s
decreasing_by exact sizeOf_lt_of_mem_children ‹_›

end Stmt

/-- The occurrences in a part of a statement. -/
def StmtPart.occurrences : StmtPart → List Occurrence
  | expr e => e.occurrences []
  | stmt s => s.occurrences

namespace Stmt

/-- The occurrences in a statement are those in its parts. -/
theorem occurrences_eq (s : Stmt) : s.occurrences = s.children.flatMap StmtPart.occurrences := by
  have whole : s.children.flatMap StmtPart.occurrences
      = s.children.attach.flatMap fun part => part.1.occurrences := by
    simp [List.flatMap]
  rw [occurrences, whole]
  congr 1
  funext ⟨part, _⟩
  cases part <;> rfl

/-- The occurrences in a statement are those of its expressions. -/
theorem map_expr_occurrences (s : Stmt) : s.occurrences.map Occurrence.expr = s.exprs := by
  induction s using Stmt.induction with
  | step s ih =>
    rw [occurrences_eq, exprs_eq, List.map_flatMap]
    refine List.flatMap_congr ?_
    intro part hpart
    cases part with
    | expr e => exact Expr.map_expr_occurrences [] e
    | stmt t => exact ih t hpart

end Stmt

/-- The occurrences in the type and the initializer of a declaration. -/
def VarDecl.occurrences (d : VarDecl) : List Occurrence :=
  d.children.flatMap (Expr.occurrences [])

namespace CompilationUnit

/-- The occurrences in the fields and method bodies, in the order of `exprs`. -/
def occurrences (u : CompilationUnit) : List Occurrence :=
  u.types.flatMap fun t =>
    t.fields.flatMap VarDecl.occurrences ++ t.methods.flatMap fun m => m.body.occurrences

/-- The occurrences in a unit are those of its expressions. -/
theorem map_expr_occurrences (u : CompilationUnit) :
    u.occurrences.map Occurrence.expr = u.exprs := by
  rw [occurrences, exprs, List.map_flatMap]
  refine List.flatMap_congr ?_
  intro t _
  rw [List.map_append, List.map_flatMap, List.map_flatMap]
  have fields (f : VarDecl) :
      f.occurrences.map Occurrence.expr = f.children.flatMap Expr.nodes := by
    rw [VarDecl.occurrences, List.map_flatMap]
    exact List.flatMap_congr fun e _ => Expr.map_expr_occurrences [] e
  have methods (m : MethodDecl) : m.body.occurrences.map Occurrence.expr = m.body.exprs :=
    Stmt.map_expr_occurrences m.body
  rw [List.flatMap_congr fun f _ => fields f, List.flatMap_congr fun m _ => methods m]

end CompilationUnit

/-- What corresponds element by element corresponds when it is put together. -/
theorem forall₂_flatMap {α β γ : Type} {R : β → γ → Prop} {f : α → List β} {g : α → List γ}
    {as : List α} (h : ∀ a ∈ as, List.Forall₂ R (f a) (g a)) :
    List.Forall₂ R (as.flatMap f) (as.flatMap g) := by
  induction as with
  | nil => exact .nil
  | cons a as ih =>
    rw [List.flatMap_cons, List.flatMap_cons]
    have rest := ih fun b hb => h b (List.mem_cons_of_mem a hb)
    exact List.rel_append (h a List.mem_cons_self) rest

/-- What is in the first of two corresponding lists corresponds to something in the second. -/
theorem exists_of_forall₂_of_mem {α β : Type} {R : α → β → Prop} {as : List α} {bs : List β}
    (h : List.Forall₂ R as bs) {a : α} (ha : a ∈ as) : ∃ b ∈ bs, R a b := by
  induction h with
  | nil => exact absurd ha List.not_mem_nil
  | @cons a' b as bs first _ ih =>
    rcases List.mem_cons.mp ha with rfl | ha
    · exact ⟨b, List.mem_cons_self, first⟩
    · obtain ⟨b', hb', related⟩ := ih ha
      exact ⟨b', List.mem_cons_of_mem b hb', related⟩

namespace RefactoringRule

variable {r : RefactoringRule} {c : MatchContext} {before : List ExpressionTemplate}
  {after : Option ExpressionTemplate}

/-- Whether some template matches an expression. -/
def anyMatches (c : MatchContext) (before : List ExpressionTemplate) (e : Expr) : Bool :=
  before.any fun t => (t.match? c e).isSome

/-- Whether some template matches an occurrence and none an expression around it. -/
def isOutermost (c : MatchContext) (before : List ExpressionTemplate) (o : Occurrence) : Bool :=
  anyMatches c before o.expr && !o.around.any (anyMatches c before)

/-- A match is the report of an occurrence: it has the span of the expression, and its fix is
built from the bindings of the first template that matches there. -/
def IsReportOf (r : RefactoringRule) (c : MatchContext) (before : List ExpressionTemplate)
    (after : Option ExpressionTemplate) (m : RuleMatch) (o : Occurrence) : Prop :=
  m.span = o.expr.span ∧
    ∃ b level, matchExpr? c before o.expr = some b ∧ m = r.reportExpr c after o.expr level b

/-- A rule finds a template for an expression exactly if some template matches it. -/
theorem isSome_matchExpr? (c : MatchContext) (before : List ExpressionTemplate) (e : Expr) :
    (matchExpr? c before e).isSome = anyMatches c before e := by
  rw [Bool.eq_iff_iff, anyMatches, List.any_eq_true]
  exact List.findSome?_isSome_iff

/-- Below a match nothing is outermost. -/
theorem filter_isOutermost_of_match {around : List Expr}
    (h : around.any (anyMatches c before) = true) (e : Expr) :
    (e.occurrences around).filter (isOutermost c before) = [] := by
  induction e using Expr.induction generalizing around with
  | step e ih =>
    have own : isOutermost c before ⟨e, around⟩ = false := by
      rw [isOutermost, h]
      exact Bool.and_false _
    have inner : (e :: around).any (anyMatches c before) = true := by
      rw [List.any_cons, h]
      exact Bool.or_true _
    rw [Expr.occurrences_eq, List.filter_cons_of_neg (by simp [own]), List.filter_flatMap,
      List.flatMap_eq_nil_iff]
    exact fun child hchild => ih child hchild inner

/-- Where no template matches an expression around, the scan reports the outermost
occurrences. -/
theorem forall₂_scanExpr {around : List Expr}
    (h : around.any (anyMatches c before) = false) (e : Expr) (level : Nat) :
    List.Forall₂ (r.IsReportOf c before after) (r.scanExpr c before after e level)
      ((e.occurrences around).filter (isOutermost c before)) := by
  induction e using Expr.induction generalizing around level with
  | step e ih =>
    have here : isOutermost c before ⟨e, around⟩ = anyMatches c before e := by
      rw [isOutermost, h]
      exact Bool.and_true _
    have inner : (e :: around).any (anyMatches c before) = anyMatches c before e := by
      rw [List.any_cons, h, Bool.or_false]
    rw [Expr.occurrences_eq]
    cases hmatch : matchExpr? c before e with
    | some b =>
      have matched : anyMatches c before e = true := by
        rw [← isSome_matchExpr?, hmatch]
        rfl
      have below : (e.children.flatMap (Expr.occurrences (e :: around))).filter
          (isOutermost c before) = [] := by
        rw [List.filter_flatMap, List.flatMap_eq_nil_iff]
        exact fun child _ => filter_isOutermost_of_match (inner.trans matched) child
      rw [scanExpr, hmatch, List.filter_cons_of_pos (here.trans matched), below]
      exact .cons ⟨rfl, b, level, hmatch, rfl⟩ .nil
    | none =>
      have unmatched : anyMatches c before e = false := by
        rw [← isSome_matchExpr?, hmatch]
        rfl
      rw [scanExpr_of_none hmatch, List.filter_cons_of_neg (by simp [here, unmatched]),
        List.filter_flatMap, ← Expr.map_fst_places, List.flatMap_map]
      refine forall₂_flatMap ?_
      intro place hplace
      have child : place.1 ∈ e.children := by
        rw [← Expr.map_fst_places]
        exact List.mem_map_of_mem hplace
      exact ih place.1 child (inner.trans unmatched) place.2

/-- The scan of a statement reports the outermost occurrences in it. -/
theorem forall₂_scanExprsOf (s : Stmt) :
    List.Forall₂ (r.IsReportOf c before after) (r.scanExprsOf c before after s)
      (s.occurrences.filter (isOutermost c before)) := by
  induction s using Stmt.induction with
  | step s ih =>
    rw [scanExprsOf_eq, SyntaxNode.children, List.flatMap_map, Stmt.occurrences_eq,
      List.filter_flatMap]
    refine forall₂_flatMap ?_
    intro part hpart
    cases part with
    | expr e => exact forall₂_scanExpr rfl e Expr.assignLevel
    | stmt t => exact ih t hpart

/-- The scan of a field reports the outermost occurrences in its type and initializer. -/
theorem forall₂_scanExprs (field : VarDecl) :
    List.Forall₂ (r.IsReportOf c before after) (r.scanExprs c before after field.children)
      (field.occurrences.filter (isOutermost c before)) := by
  rw [scanExprs, VarDecl.occurrences, List.filter_flatMap]
  exact forall₂_flatMap fun e _ => forall₂_scanExpr rfl e Expr.assignLevel

/-- The scan of a unit reports the outermost occurrences in it. -/
theorem forall₂_scan (hr : r.body = .expression before after) :
    List.Forall₂ (r.IsReportOf c before after) (r.scan c)
      (c.unit.occurrences.filter (isOutermost c before)) := by
  rw [scan, CompilationUnit.occurrences, List.filter_flatMap]
  refine forall₂_flatMap ?_
  intro t _
  rw [List.filter_append, List.filter_flatMap, List.filter_flatMap]
  refine List.rel_append ?_ ?_
  · refine forall₂_flatMap fun field _ => ?_
    rw [scanField, hr]
    exact forall₂_scanExprs field
  · refine forall₂_flatMap fun m _ => ?_
    rw [scanBody, hr]
    exact forall₂_scanExprsOf m.body

/-- A rule about expressions reports exactly the outermost occurrences of what its templates
match, in the order of the expressions of the unit, each with its own span. -/
theorem scan_outermost (name : String) (before : List ExpressionTemplate)
    (after : Option ExpressionTemplate) (options : TemplateOptions) (c : MatchContext) :
    let r : RefactoringRule := ⟨name, .expression before after, options⟩
    let outermost := c.unit.occurrences.filter (isOutermost c before)
    c.unit.occurrences.map Occurrence.expr = c.unit.exprs ∧
      List.Forall₂ (r.IsReportOf c before after) (r.scan c) outermost ∧
        (r.scan c).map RuleMatch.span = outermost.map fun o => o.expr.span := by
  intro r outermost
  have each : List.Forall₂ (r.IsReportOf c before after) (r.scan c) outermost :=
    forall₂_scan rfl
  refine ⟨c.unit.map_expr_occurrences, each, ?_⟩
  have spans := each.imp fun m o report => report.1
  rw [← List.forall₂_eq_eq_eq, List.forall₂_map_left_iff, List.forall₂_map_right_iff]
  exact spans

end RefactoringRule

end JavaRefactor
