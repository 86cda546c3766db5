import JavaRefactor.Rule.Basic
import JavaRefactor.Rule.Place

/-!
# Applying rules to a unit

A rule is tried everywhere in the fields and the method bodies of a unit.  A rule about
expressions is tried at every expression from the outside in, and nothing inside a match is
tried again.  A rule about statements goes through every block from left to right; where it
does not match, it goes into the statement.
-/

namespace JavaRefactor

/-- A place where a rule matches. -/
structure RuleMatch where
  /-- The name of the rule in reports. -/
  rule : String
  span : Span
  /-- There is none if the rule writes no code, or if its code cannot be built here. -/
  fix : Option Fix

namespace RefactoringRule

/-! ### Rules about expressions -/

/-- The bindings of the first template that an expression matches. -/
def matchExpr? (c : MatchContext) (before : List ExpressionTemplate) (e : Expr) :
    Option Bindings :=
  before.findSome? fun t => t.match? c e

/-- The report of a matching expression in a place of some level. -/
def reportExpr (r : RefactoringRule) (c : MatchContext) (after : Option ExpressionTemplate)
    (e : Expr) (level : Nat) (b : Bindings) : RuleMatch :=
  { rule := r.displayName, span := e.span
    fix := after.bind fun t => (t.replace c e b r.importPolicy level).toOption }

/-- The matches of a rule in an expression that stands in a place of some level. -/
def scanExpr (r : RefactoringRule) (c : MatchContext) (before : List ExpressionTemplate)
    (after : Option ExpressionTemplate) (e : Expr) (level : Nat) : List RuleMatch :=
  match matchExpr? c before e with
  | some b => [r.reportExpr c after e level b]
  | none =>
    e.places.attach.flatMap fun ⟨(child, level), _⟩ => scanExpr r c before after child level
termination_by sizeOf e
decreasing_by exact Expr.sizeOf_lt_of_mem_places ‹_›

/-- The matches of a rule in some expressions that need no parentheses. -/
def scanExprs (r : RefactoringRule) (c : MatchContext) (before : List ExpressionTemplate)
    (after : Option ExpressionTemplate) (es : List Expr) : List RuleMatch :=
  es.flatMap fun e => r.scanExpr c before after e Expr.assignLevel

/-- The matches of a rule about expressions in a statement. -/
def scanExprsOf (r : RefactoringRule) (c : MatchContext) (before : List ExpressionTemplate)
    (after : Option ExpressionTemplate) (s : Stmt) : List RuleMatch :=
  s.children.attach.flatMap fun
    | ⟨.expr e, _⟩ => r.scanExpr c before after e Expr.assignLevel
    | ⟨.stmt t, _⟩ => scanExprsOf r c before after t
termination_by sizeOf s
decreasing_by exact Stmt.sizeOf_lt_of_mem_children ‹_›

/-! ### Rules about statements -/

/-- The match of the first template that fits the statements at the front of a list. -/
def matchFront? (c : MatchContext) (before : List BlockTemplate) (start : Nat)
    (stmts : List Stmt) : Option BlockMatch :=
  before.findSome? fun t => t.matchFront? c start stmts

/-- The report of matching statements. -/
def reportRun (r : RefactoringRule) (c : MatchContext) (after : Option BlockTemplate)
    (found : BlockMatch) : RuleMatch :=
  { rule := r.displayName, span := found.span
    fix := after.bind fun t => (t.replace c found r.importPolicy).toOption }

mutual

/-- The matches of a rule about statements in a statement. -/
def scanStmt (r : RefactoringRule) (c : MatchContext) (before : List BlockTemplate)
    (after : Option BlockTemplate) : Stmt → List RuleMatch
  | .block _ stmts => scanRun r c before after 0 0 stmts
  | .ifElse _ _ yes no => scanStmt r c before after yes ++ scanOption r c before after no
  | .whileLoop _ _ body => scanStmt r c before after body
  | .doLoop _ body _ => scanStmt r c before after body
  | .forLoop _ init _ _ body => scanEach r c before after init ++ scanStmt r c before after body
  | .forEach _ _ _ body => scanStmt r c before after body
  | .synchronized _ _ body => scanStmt r c before after body
  | .ret .. | .raise .. | .expr .. | .empty _ | .declare .. => []

/-- The matches in what follows the first `start` statements of a block, after passing over
`skip` more that belong to a match. -/
def scanRun (r : RefactoringRule) (c : MatchContext) (before : List BlockTemplate)
    (after : Option BlockTemplate) (start skip : Nat) : List Stmt → List RuleMatch
  | [] => []
  | s :: rest =>
    match skip with
    | skip + 1 => scanRun r c before after (start + 1) skip rest
    | 0 =>
      match matchFront? c before start (s :: rest) with
      | some found =>
        r.reportRun c after found
          :: scanRun r c before after (start + 1) (found.stmts.length - 1) rest
      | none => scanStmt r c before after s ++ scanRun r c before after (start + 1) 0 rest

/-- The matches of a rule about statements inside each of some statements. -/
def scanEach (r : RefactoringRule) (c : MatchContext) (before : List BlockTemplate)
    (after : Option BlockTemplate) : List Stmt → List RuleMatch
  | [] => []
  | s :: rest => scanStmt r c before after s ++ scanEach r c before after rest

/-- The matches of a rule about statements inside an optional statement. -/
def scanOption (r : RefactoringRule) (c : MatchContext) (before : List BlockTemplate)
    (after : Option BlockTemplate) : Option Stmt → List RuleMatch
  | none => []
  | some s => scanStmt r c before after s

end

/-! ### Units -/

/-- The matches of a rule in a field. -/
def scanField (r : RefactoringRule) (c : MatchContext) (field : VarDecl) : List RuleMatch :=
  match r.body with
  | .expression before after => r.scanExprs c before after field.children
  | .block _ _ => []

/-- The matches of a rule in the body of a method. -/
def scanBody (r : RefactoringRule) (c : MatchContext) (body : Stmt) : List RuleMatch :=
  match r.body with
  | .expression before after => r.scanExprsOf c before after body
  | .block before after => r.scanStmt c before after body

/-- The matches of a rule in a unit, in source order. -/
def scan (r : RefactoringRule) (c : MatchContext) : List RuleMatch :=
  c.unit.types.flatMap fun t =>
    t.fields.flatMap (r.scanField c) ++ t.methods.flatMap fun m => r.scanBody c m.body

end RefactoringRule

/-- The fixes of some matches together. -/
def RuleMatch.mergedFix (found : List RuleMatch) : Fix :=
  (found.filterMap (·.fix)).foldl Fix.merge .empty

/-- The matches of several rules, each applied on its own, rule after rule. -/
def RefactoringRule.scanAll (rules : List RefactoringRule) (c : MatchContext) : List RuleMatch :=
  rules.flatMap fun r => r.scan c

end JavaRefactor
