import JavaRefactor.Tree.Expr

/-!
# Statements

The syntax tree of Java statements.  A statement carries its span and the line comments
written directly above it.  `Stmt.children` lists the direct parts of a statement in source
order, so that the expressions and the statements inside it come in the order in which they
are written.
-/

namespace JavaRefactor

/-- The declaration of a local variable, a field, a parameter or a loop variable. -/
structure VarDecl where
  name : String
  /-- The declared type, as type syntax. -/
  type : Expr
  init : Option Expr
  symbol : Option SymbolId
  isFinal : Bool

/-- The expressions of a declaration. -/
def VarDecl.children (d : VarDecl) : List Expr := d.type :: d.init.toList

/-- What every statement carries. -/
structure StmtInfo where
  span : Span
  /-- The comments above the statement, without their marker. -/
  comments : List String
  deriving DecidableEq, Inhabited

/-- The data of a synthesized statement. -/
def StmtInfo.synthetic : StmtInfo := ⟨.synthetic, []⟩

/-- A statement. -/
inductive Stmt where
  | block (info : StmtInfo) (stmts : List Stmt)
  | ifElse (info : StmtInfo) (cond : Expr) (yes : Stmt) (no : Option Stmt)
  | whileLoop (info : StmtInfo) (cond : Expr) (body : Stmt)
  | doLoop (info : StmtInfo) (body : Stmt) (cond : Expr)
  /-- A counting loop; its header starts with declarations or expression statements. -/
  | forLoop (info : StmtInfo) (init : List Stmt) (cond : Option Expr) (update : List Expr)
      (body : Stmt)
  | forEach (info : StmtInfo) (var : VarDecl) (iterable : Expr) (body : Stmt)
  | ret (info : StmtInfo) (value : Option Expr)
  | raise (info : StmtInfo) (value : Expr)
  | synchronized (info : StmtInfo) (lock : Expr) (body : Stmt)
  | expr (info : StmtInfo) (value : Expr)
  | empty (info : StmtInfo)
  | declare (info : StmtInfo) (decl : VarDecl)

/-- A direct part of a statement. -/
inductive StmtPart where
  | expr (e : Expr)
  | stmt (s : Stmt)

namespace Stmt

/-- The data at the root of a statement. -/
def info : Stmt → StmtInfo
  | block i _ | ifElse i _ _ _ | whileLoop i _ _ | doLoop i _ _ | forLoop i _ _ _ _
  | forEach i _ _ _ | ret i _ | raise i _ | synchronized i _ _ | expr i _ | empty i
  | declare i _ => i

/-- The span of the source text, comments above it not included. -/
def span (s : Stmt) : Span := s.info.span

/-- The comments above a statement. -/
def comments (s : Stmt) : List String := s.info.comments

/-- The statements of a block. -/
def block? : Stmt → Option (List Stmt)
  | block _ stmts => some stmts
  | _ => none

/-- Whether a statement is a block. -/
def isBlock (s : Stmt) : Bool := s.block?.isSome

/-- Whether a statement is conditional. -/
def isIf : Stmt → Bool
  | ifElse .. => true
  | _ => false

/-- The direct parts of a statement, in source order. -/
def children : Stmt → List StmtPart
  | block _ stmts => stmts.map .stmt
  | ifElse _ cond yes no => .expr cond :: .stmt yes :: no.toList.map .stmt
  | whileLoop _ cond body => [.expr cond, .stmt body]
  | doLoop _ body cond => [.stmt body, .expr cond]
  | forLoop _ init cond update body =>
    init.map .stmt ++ cond.toList.map .expr ++ update.map .expr ++ [.stmt body]
  | forEach _ var iterable body => var.children.map .expr ++ [.expr iterable, .stmt body]
  | ret _ value => value.toList.map .expr
  | raise _ value => [.expr value]
  | synchronized _ lock body => [.expr lock, .stmt body]
  | expr _ value => [.expr value]
  | empty _ => []
  | declare _ decl => decl.children.map .expr

/-- A part is smaller than the statement. -/
theorem sizeOf_lt_of_mem_children {s c : Stmt} (h : StmtPart.stmt c ∈ s.children) :
    sizeOf c < sizeOf s := by
  have list {xs : List Stmt} (hc : c ∈ xs) : sizeOf c < sizeOf xs := List.sizeOf_lt_of_mem hc
  cases s <;> simp [children] at h
  case block i stmts =>
    have := list h
    simp
    omega
  case ifElse i cond yes no => rcases h with rfl | rfl <;> simp <;> omega
  case forLoop i init cond update body =>
    rcases h with h | rfl
    · have := list h
      rw [forLoop.sizeOf_spec]
      omega
    · rw [forLoop.sizeOf_spec]
      omega
  all_goals (subst h; simp <;> omega)

/-- To prove something of every statement, prove it of each one whose direct substatements
have it. -/
theorem induction {motive : Stmt → Prop}
    (step : ∀ s, (∀ c, StmtPart.stmt c ∈ s.children → motive c) → motive s) (s : Stmt) :
    motive s :=
  step s fun c _ => induction step c
termination_by sizeOf s
decreasing_by exact sizeOf_lt_of_mem_children ‹_›

/-- The expressions inside a statement, each before its children, in source order. -/
def exprs (s : Stmt) : List Expr :=
  s.children.attach.flatMap fun
    | ⟨.expr e, _⟩ => e.nodes
    | ⟨.stmt c, _⟩ => exprs c
termination_by sizeOf s
decreasing_by exact sizeOf_lt_of_mem_children ‹_›

/-- The statement and the statements inside it, each before its parts. -/
def stmts (s : Stmt) : List Stmt :=
  s :: s.children.attach.flatMap fun
    | ⟨.expr _, _⟩ => []
    | ⟨.stmt c, _⟩ => stmts c
termination_by sizeOf s
decreasing_by exact sizeOf_lt_of_mem_children ‹_›

end Stmt

namespace StmtPart

/-- The expressions inside a part of a statement. -/
def nodes : StmtPart → List Expr
  | expr e => e.nodes
  | stmt s => s.exprs

/-- The statements inside a part of a statement. -/
def inner : StmtPart → List Stmt
  | expr _ => []
  | stmt s => s.stmts

end StmtPart

namespace Stmt

/-- The expressions of a statement are those of its parts. -/
theorem exprs_eq (s : Stmt) : s.exprs = s.children.flatMap StmtPart.nodes := by
  have whole : s.children.flatMap StmtPart.nodes
      = s.children.attach.flatMap fun part => part.1.nodes := by
    simp [List.flatMap]
  rw [exprs, whole]
  congr 1
  funext ⟨part, _⟩
  cases part <;> rfl

/-- The statements of a statement are the statement and those of its parts. -/
theorem stmts_eq (s : Stmt) : s.stmts = s :: s.children.flatMap StmtPart.inner := by
  have whole : s.children.flatMap StmtPart.inner
      = s.children.attach.flatMap fun part => part.1.inner := by
    simp [List.flatMap]
  rw [stmts, whole]
  congr 2
  funext ⟨part, _⟩
  cases part <;> rfl

end Stmt

end JavaRefactor
