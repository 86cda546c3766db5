import JavaRefactor.Fix
import JavaRefactor.Matching.Stmt
import JavaRefactor.Template.Basic

/-!
# Block templates

A template of consecutive statements.  A run of as many statements matches it if they have
the form of the patterns one by one, no comment stands within the run, and the types are
right.  The replacement writes statement over statement: statements that are left over in
the code are deleted with their lines, and patterns that are left over in the template go
together to the place of the last statement.
-/

namespace JavaRefactor

/-- The span from the first of some statements to the last. -/
def Stmt.runSpan? (stmts : List Stmt) : Option Span :=
  match stmts.head?, stmts.getLast? with
  | some first, some last => some (first.span.merge last.span)
  | _, _ => none

/-- A template of consecutive statements. -/
structure BlockTemplate where
  header : TemplateHeader
  stmts : List StmtPattern

/-- Consecutive statements that match a template. -/
structure BlockMatch where
  /-- The statements before the match in the same block. -/
  start : Nat
  stmts : List Stmt
  bindings : Bindings

namespace BlockMatch

/-- The position after the last statement of the match. -/
def stop (m : BlockMatch) : Nat := m.start + m.stmts.length

/-- The span of the matched statements. -/
def span (m : BlockMatch) : Span := (Stmt.runSpan? m.stmts).getD .synthetic

end BlockMatch

/-- A span that takes in the line break and the indentation before it, if nothing else
stands before it on its line. -/
def Span.wholeLine (source : String) (span : Span) : Span :=
  let before := (Text.slice? source.toList 0 span.start).getD []
  match before.reverse.dropWhile CompilationUnit.isIndentation with
  | '\n' :: rest => ⟨Text.byteLength rest, span.stop⟩
  | _ => span

namespace BlockTemplate

/-- The number of statements that the template matches. -/
def width (t : BlockTemplate) : Nat := t.stmts.length

/-- The bindings under which exactly these statements match. -/
def matchRun? (t : BlockTemplate) (c : MatchContext) (run : List Stmt) : Option Bindings := do
  let b ← StmtPattern.unifyEach c.unit.symbols t.stmts run .empty
  if c.unit.hasCommentWithin (← Stmt.runSpan? run) then none
  else t.header.typeCheck c.table b none

/-- The match of the statements at the front of a list. -/
def matchFront? (t : BlockTemplate) (c : MatchContext) (start : Nat) (stmts : List Stmt) :
    Option BlockMatch :=
  if t.width ≤ stmts.length then
    (t.matchRun? c (stmts.take t.width)).map fun b => ⟨start, stmts.take t.width, b⟩
  else none

/-- The matches in what follows the first `start` statements of a block, after passing over
`skip` more that belong to a match. -/
def scanFrom (t : BlockTemplate) (c : MatchContext) (start skip : Nat) :
    List Stmt → List BlockMatch
  | [] => []
  | s :: rest =>
    match skip with
    | skip + 1 => scanFrom t c (start + 1) skip rest
    | 0 =>
      match t.matchFront? c start (s :: rest) with
      | some found => found :: scanFrom t c (start + 1) (t.width - 1) rest
      | none => scanFrom t c (start + 1) 0 rest

/-- The matches in a block, from left to right and without overlaps. -/
def scan (t : BlockTemplate) (c : MatchContext) (stmts : List Stmt) : List BlockMatch :=
  t.scanFrom c 0 0 stmts

/-- The edit that writes the statements that some patterns become in place of a statement,
indented like it. -/
def replaceStmt (c : ExpansionContext) (ps : List StmtPattern) (target : Stmt) :
    Expanding TextEdit := do
  let stmts ← StmtPattern.expandEach c ps
  return ⟨target.span,
    Stmt.renderAll c.unit.source (c.unit.lineIndent target.span.start) stmts⟩

/-- The edits that replace statements by what patterns become. -/
def replaceEach (c : ExpansionContext) : List StmtPattern → List Stmt → Expanding (List TextEdit)
  | [], targets => return targets.map fun s => .deletion (s.span.wholeLine c.unit.source)
  | _ :: _, [] => return []
  | p :: ps, [last] => return [← replaceStmt c (p :: ps) last]
  | p :: ps, target :: next :: targets => do
    let e ← replaceStmt c [p] target
    return e :: (← replaceEach c ps (next :: targets))

/-- The fix that writes the template in place of a match. -/
def replace (t : BlockTemplate) (c : MatchContext) (found : BlockMatch) (policy : ImportPolicy) :
    Except ExpansionError Fix :=
  match (replaceEach (c.expansion found.bindings policy) t.stmts found.stmts).run .empty with
  | (.ok edits, imports) => .ok ⟨edits, imports⟩
  | (.error e, _) => .error e

end BlockTemplate

end JavaRefactor
