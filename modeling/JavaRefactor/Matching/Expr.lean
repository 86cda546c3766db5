import JavaRefactor.Binding
import JavaRefactor.JavaType.Substitution
import JavaRefactor.Layout.Expr
import JavaRefactor.Pattern.Basic

/-!
# Matching expressions

A pattern is matched against a target while the bindings found so far are passed along: the
result is the extended bindings, or nothing when the target does not have the form of the
pattern.  The parts of a pattern are matched from left to right, and the search never goes
back, except that the alternatives of `anyOf` are tried in order with the same bindings.

A free variable is bound at its first occurrence; at a later one the target must have the
same type and the same printed form as the expression it is bound to.  A repeated variable
at the end of a list takes all targets that are left.
-/

namespace JavaRefactor

/-- Whether two expressions have the same type and the same printed form. -/
def Expr.looksLike (a b : Expr) : Bool := a.type.isSame b.type && a.print == b.print

/-- The symbol that an expression resolves to, if the table has it. -/
def SymbolTable.resolve? (symbols : SymbolTable) (e : Expr) : Option Symbol :=
  e.symbol?.bind symbols.get?

namespace Bindings

/-- Match a free variable.  It never stands for `super`, nor for an expression that refers
to a local variable which the pattern declares. -/
def matchFree (b : Bindings) (name : String) (target : Expr) : Option Bindings :=
  if target.form = .super || b.localSymbols.any target.references then none
  else
    match b.free.lookup name with
    | none => (b.insertFree name target).toOption
    | some bound => if bound.looksLike target then some b else none

/-- Match a local variable: the target must refer to the local that it is bound to. -/
def matchLocal (b : Bindings) (name : String) (target : Expr) : Option Bindings :=
  match target, b.locals.lookup name with
  | .ident _ _ (some symbol), some bound => if bound.symbol = symbol then some b else none
  | _, _ => none

/-- Match a type variable that is used as an expression by the type of the target. -/
def matchType (b : Bindings) (name : String) (target : Expr) : Option Bindings :=
  match b.types.lookup name with
  | none => (b.insertType name ⟨target.type, some target⟩).toOption
  | some bound => if bound.type.isSame target.type then some b else none

/-- What a repeated variable takes from one target: the expression that a free variable of
the same name stands for after matching the target. -/
def repeatedItem (b : Bindings) (name : String) (target : Expr) : Option Expr := do
  (← b.matchFree name target).free.lookup name

/-- Match a repeated variable against the targets that are left of a list.  Each of them is
matched on its own, and only the whole list is bound. -/
def matchRepeated (b : Bindings) (name : String) (targets : List Expr) : Option Bindings := do
  (b.insertRepeated name (← targets.mapM (b.repeatedItem name))).toOption

end Bindings

namespace ExprPattern

/-- Whether an expression names a class.  A name that resolves is judged by its symbol, and
one that does not by its type. -/
def namesClass (symbols : SymbolTable) (name : String) (target : Expr) : Bool :=
  match target with
  | .ident .. | .select .. =>
    match symbols.resolve? target with
    | some symbol => symbol.kind == .type && symbol.qualifiedName == name
    | none => target.symbol?.isNone && target.type.className? == some name
  | _ => false

/-- Whether an expression resolves to a static member of a class, of a type that has the
form of a pattern. -/
def namesStatic (symbols : SymbolTable) (owner member : String) (type : TypePattern)
    (target : Expr) : Bool :=
  match symbols.resolve? target with
  | some symbol => symbol.owner == some owner && symbol.name == member && type.accepts symbol.type
  | none => false

mutual

/-- Match the receiver that a bare reference to a member leaves out.  Only patterns that
can stand for any expression accept it. -/
def matchImplicit : ExprPattern → Expr → Bindings → Option Bindings
  | .free name, receiver, b => b.matchFree name receiver
  | .paren inner, receiver, b => matchImplicit inner receiver b
  | .anyOf alternatives, receiver, b => matchImplicitFirst alternatives receiver b
  | _, _, _ => none

/-- Match a receiver that is left out against the first alternative that accepts it. -/
def matchImplicitFirst : List ExprPattern → Expr → Bindings → Option Bindings
  | [], _, _ => none
  | p :: ps, receiver, b =>
    match matchImplicit p receiver b with
    | some found => some found
    | none => matchImplicitFirst ps receiver b

end

mutual

/-- The bindings extended by matching an expression. -/
def unify (symbols : SymbolTable) (p : ExprPattern) (target : Expr) (b : Bindings) :
    Option Bindings :=
  match p with
  | .literal value =>
    match target with
    | .literal _ found => if found = value then some b else none
    | _ => none
  | .free name => b.matchFree name target
  | .repeated name => b.matchFree name target
  | .localVar name => b.matchLocal name target
  | .typeVar name => b.matchType name target
  | .classRef name => if namesClass symbols name target then some b else none
  | .staticRef owner member type =>
    if namesStatic symbols owner member type target then some b else none
  | .binary op left right =>
    match target with
    | .binary _ found targetLeft targetRight =>
      if found = op then do
        unify symbols right targetRight (← unify symbols left targetLeft b)
      else none
    | _ => none
  | .unary op operand =>
    match target with
    | .unary _ found targetOperand =>
      if found = op then unify symbols operand targetOperand.skipParens b else none
    | _ => none
  | .assign place value =>
    match target with
    | .assign _ targetPlace targetValue => do
      unify symbols value targetValue (← unify symbols place targetPlace b)
    | _ => none
  | .compoundAssign op place value =>
    match target with
    | .compoundAssign _ found targetPlace targetValue =>
      if found = op then do
        unify symbols value targetValue (← unify symbols place targetPlace b)
      else none
    | _ => none
  | .conditional cond yes no =>
    match target with
    | .conditional _ targetCond targetYes targetNo => do
      let b ← unify symbols cond targetCond b
      unify symbols no targetNo (← unify symbols yes targetYes b)
    | _ => none
  | .cast type operand =>
    match target with
    | .cast _ targetType targetOperand => do
      unify symbols operand targetOperand (← unify symbols type targetType b)
    | _ => none
  | .instanceOf operand type =>
    match target with
    | .instanceOf _ targetOperand targetType => do
      unify symbols type targetType (← unify symbols operand targetOperand b)
    | _ => none
  | .call callee args =>
    match target with
    | .call _ targetCallee targetArgs => do
      unifyList symbols args targetArgs (← unify symbols callee targetCallee b)
    | _ => none
  | .select receiver name type =>
    match target with
    | .select _ targetReceiver found (some id) =>
      if found = name then do
        let symbol ← symbols.get? id
        let b ← unify symbols receiver targetReceiver b
        if type.accepts symbol.type then some b else none
      else none
    | .ident _ found (some id) =>
      if found = name then do
        let symbol ← symbols.get? id
        if symbol.isMember then
          let owner ← symbol.owner
          let b ← matchImplicit receiver (.this (.ofType (.ofClass owner))) b
          if type.accepts symbol.type then some b else none
        else none
      else none
    | _ => none
  | .index array position =>
    match target with
    | .index _ targetArray targetPosition => do
      unify symbols position targetPosition (← unify symbols array targetArray b)
    | _ => none
  | .newArray element dims init =>
    match target with
    | .newArray _ targetElement targetDims targetInit => do
      let b ← unifyOption symbols element targetElement b
      unifyInit symbols init targetInit (← unifyList symbols dims targetDims b)
    | _ => none
  | .newObject type args =>
    match target with
    | .newObject _ targetType targetArgs => do
      unifyList symbols args targetArgs (← unify symbols type targetType b)
    | _ => none
  | .paren inner =>
    match target with
    | .paren _ targetInner => unify symbols inner targetInner b
    | _ => unify symbols inner target b
  | .primitiveType kind =>
    match target with
    | .primitiveType _ found => if found = kind then some b else none
    | _ => none
  | .typeApply base args =>
    match target with
    | .typeApply _ targetBase targetArgs => do
      unifyList symbols args targetArgs (← unify symbols base targetBase b)
    | _ => none
  | .arrayType element =>
    match target with
    | .arrayType _ targetElement => unify symbols element targetElement b
    | _ => none
  | .anyOf alternatives => unifyFirst symbols alternatives target b
  | .ofForm inner allowed =>
    if allowed.contains target.form then unify symbols inner target b else none

/-- The bindings extended by matching a list of expressions: place by place, but a repeated
variable at the end takes the rest. -/
def unifyList (symbols : SymbolTable) (ps : List ExprPattern) (targets : List Expr)
    (b : Bindings) : Option Bindings :=
  match ps, targets with
  | [], [] => some b
  | [.repeated name], targets => b.matchRepeated name targets
  | .repeated _ :: _ :: _, _ => none
  | p :: ps, target :: targets => do
    unifyList symbols ps targets (← unify symbols p target b)
  | _, _ => none

/-- The bindings extended by matching an optional expression, which must be absent exactly
when its pattern is. -/
def unifyOption (symbols : SymbolTable) (p : Option ExprPattern) (target : Option Expr)
    (b : Bindings) : Option Bindings :=
  match p, target with
  | none, none => some b
  | some p, some target => unify symbols p target b
  | _, _ => none

/-- The bindings extended by matching the optional initializer of an array. -/
def unifyInit (symbols : SymbolTable) (ps : Option (List ExprPattern))
    (targets : Option (List Expr)) (b : Bindings) : Option Bindings :=
  match ps, targets with
  | none, none => some b
  | some ps, some targets => unifyList symbols ps targets b
  | _, _ => none

/-- The bindings extended by the first pattern that matches. -/
def unifyFirst (symbols : SymbolTable) (ps : List ExprPattern) (target : Expr) (b : Bindings) :
    Option Bindings :=
  match ps with
  | [] => none
  | p :: ps =>
    match unify symbols p target b with
    | some found => some found
    | none => unifyFirst symbols ps target b

end

end ExprPattern

end JavaRefactor
