import JavaRefactor.Expansion.Expr

/-!
# Expanding statements

The statements that patterns become.  A variable that was matched keeps the name that it has
in the matched code.
-/

namespace JavaRefactor

namespace DeclPattern

/-- The declared name: the one in the matched code, if there is one. -/
def nameIn (p : DeclPattern) (b : Bindings) : String :=
  ((b.locals.lookup p.name).map (·.name)).getD p.name

/-- The declaration that a pattern becomes. -/
def expand (c : ExpansionContext) (p : DeclPattern) : Expanding VarDecl := do
  let type ← p.type.expand c
  let init ← ExprPattern.expandOption c p.init
  return { name := p.nameIn c.bindings, type, init
           symbol := (c.bindings.locals.lookup p.name).map (·.symbol), isFinal := false }

end DeclPattern

namespace StmtPattern

mutual

/-- The statement that a pattern becomes. -/
def expand (c : ExpansionContext) : StmtPattern → Expanding Stmt
  | .block stmts => return .block .synthetic (← expandEach c stmts)
  | .ifElse cond yes no => do
    let cond ← cond.expand c
    let yes ← expand c yes
    return .ifElse .synthetic cond yes (← expandOption c no)
  | .whileLoop cond body => do
    let cond ← cond.expand c
    return .whileLoop .synthetic cond (← expand c body)
  | .doLoop body cond => do
    let body ← expand c body
    return .doLoop .synthetic body (← cond.expand c)
  | .forLoop init cond update body => do
    let init ← expandEach c init
    let cond ← ExprPattern.expandOption c cond
    let update ← ExprPattern.expandList c update
    return .forLoop .synthetic init cond update (← expand c body)
  | .forEach var iterable body => do
    let var ← var.expand c
    let iterable ← iterable.expand c
    return .forEach .synthetic var iterable (← expand c body)
  | .ret value => return .ret .synthetic (← ExprPattern.expandOption c value)
  | .raise value => return .raise .synthetic (← value.expand c)
  | .synchronized lock body => do
    let lock ← lock.expand c
    return .synchronized .synthetic lock (← expand c body)
  | .expr value => return .expr .synthetic (← value.expand c)
  | .empty => return .empty .synthetic
  | .declare decl => return .declare .synthetic (← decl.expand c)

/-- The statements that some patterns become. -/
def expandEach (c : ExpansionContext) : List StmtPattern → Expanding (List Stmt)
  | [] => return []
  | p :: ps => do
    let s ← expand c p
    return s :: (← expandEach c ps)

/-- The optional statement that an optional pattern becomes. -/
def expandOption (c : ExpansionContext) : Option StmtPattern → Expanding (Option Stmt)
  | none => return none
  | some p => return some (← expand c p)

end

end StmtPattern

end JavaRefactor
