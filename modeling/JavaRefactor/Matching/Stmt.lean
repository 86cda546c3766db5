import JavaRefactor.Matching.Expr
import JavaRefactor.Tree.Stmt

/-!
# Matching statements

Statements are matched part by part in source order, so that a variable is declared before
the code that uses it.  Comments and `final` play no role.
-/

namespace JavaRefactor

/-- The bindings extended by matching a declaration.  The variable of the pattern must not
be bound before, and is bound last: its own initializer is matched without it. -/
def DeclPattern.unify (symbols : SymbolTable) (p : DeclPattern) (target : VarDecl)
    (b : Bindings) : Option Bindings := do
  if (b.locals.lookup p.name).isSome then none
  else
    let symbol ← target.symbol
    let b ← p.type.unify symbols target.type b
    let b ← ExprPattern.unifyOption symbols p.init target.init b
    (b.insertLocal p.name ⟨symbol, target.name⟩).toOption

namespace StmtPattern

mutual

/-- The bindings extended by matching a statement. -/
def unify (symbols : SymbolTable) (p : StmtPattern) (target : Stmt) (b : Bindings) :
    Option Bindings :=
  match p with
  | .block stmts =>
    match target with
    | .block _ targetStmts => unifyEach symbols stmts targetStmts b
    | _ => none
  | .ifElse cond yes no =>
    match target with
    | .ifElse _ targetCond targetYes targetNo => do
      let b ← cond.unify symbols targetCond b
      unifyOption symbols no targetNo (← unify symbols yes targetYes b)
    | _ => none
  | .whileLoop cond body =>
    match target with
    | .whileLoop _ targetCond targetBody => do
      unify symbols body targetBody (← cond.unify symbols targetCond b)
    | _ => none
  | .doLoop body cond =>
    match target with
    | .doLoop _ targetBody targetCond => do
      cond.unify symbols targetCond (← unify symbols body targetBody b)
    | _ => none
  | .forLoop init cond update body =>
    match target with
    | .forLoop _ targetInit targetCond targetUpdate targetBody => do
      let b ← unifyEach symbols init targetInit b
      let b ← ExprPattern.unifyOption symbols cond targetCond b
      let b ← ExprPattern.unifyList symbols update targetUpdate b
      unify symbols body targetBody b
    | _ => none
  | .forEach var iterable body =>
    match target with
    | .forEach _ targetVar targetIterable targetBody => do
      let b ← var.unify symbols targetVar b
      unify symbols body targetBody (← iterable.unify symbols targetIterable b)
    | _ => none
  | .ret value =>
    match target with
    | .ret _ targetValue => ExprPattern.unifyOption symbols value targetValue b
    | _ => none
  | .raise value =>
    match target with
    | .raise _ targetValue => value.unify symbols targetValue b
    | _ => none
  | .synchronized lock body =>
    match target with
    | .synchronized _ targetLock targetBody => do
      unify symbols body targetBody (← lock.unify symbols targetLock b)
    | _ => none
  | .expr value =>
    match target with
    | .expr _ targetValue => value.unify symbols targetValue b
    | _ => none
  | .empty =>
    match target with
    | .empty _ => some b
    | _ => none
  | .declare decl =>
    match target with
    | .declare _ targetDecl => decl.unify symbols targetDecl b
    | _ => none

/-- The bindings extended by matching as many statements as there are patterns. -/
def unifyEach (symbols : SymbolTable) (ps : List StmtPattern) (targets : List Stmt)
    (b : Bindings) : Option Bindings :=
  match ps, targets with
  | [], [] => some b
  | p :: ps, target :: targets => do
    unifyEach symbols ps targets (← unify symbols p target b)
  | _, _ => none

/-- The bindings extended by matching an optional statement, which must be absent exactly
when its pattern is. -/
def unifyOption (symbols : SymbolTable) (p : Option StmtPattern) (target : Option Stmt)
    (b : Bindings) : Option Bindings :=
  match p, target with
  | none, none => some b
  | some p, some target => unify symbols p target b
  | _, _ => none

end

end StmtPattern

end JavaRefactor
