import JavaRefactor.Expansion.Type
import JavaRefactor.Pattern.Basic

/-!
# Expanding expressions

Expanding a pattern of expressions gives the expression that its variables and references
describe.  What a variable stands for is copied with its spans, so its text can be taken
from the source; all other nodes are new.  Every node gets the type that the printer and
later matches rely on.
-/

namespace JavaRefactor

/-- Why a pattern cannot be expanded. -/
inductive ExpansionError where
  | unknownClass (error : UnknownClass)
  | unbound (key : BindingKey)
  /-- A choice between patterns does not say which one to write. -/
  | choice
  | repeatedOutsideList (name : String)
  deriving DecidableEq

/-- What a message says about a pattern that cannot be expanded. -/
def ExpansionError.message : ExpansionError → String
  | unknownClass error => error.message
  | unbound key => "no binding for " ++ key.display
  | choice => "an any-of pattern cannot be inlined"
  | repeatedOutsideList name =>
    "repeated variable `" ++ name ++ "` used outside an argument list"

/-- A computation that collects imports and may fail; the imports that were collected
before a failure remain. -/
abbrev Expanding (α : Type) : Type := ExceptT ExpansionError (StateM PendingImports) α

/-! ### Types of new nodes -/

/-- The type of a binary operation on two expressions. -/
def BinaryOperator.resultType (op : BinaryOperator) (left right : Expr) : JavaType :=
  match op with
  | .eq | .notEq | .lt | .le | .gt | .ge | .and | .or => .primitive .boolean
  | .add =>
    if left.type = .string ∨ right.type = .string then .string else left.type
  | _ => left.type

/-- The type of a unary operation on an expression. -/
def UnaryOperator.resultType (op : UnaryOperator) (operand : Expr) : JavaType :=
  match op with
  | .not => .primitive .boolean
  | _ => operand.type

/-- What calling something of a type gives. -/
def JavaType.returned : JavaType → JavaType
  | .method _ ret => ret
  | .generic _ signature => signature.returned
  | _ => .unknown

/-- The type of an array with some number of dimensions, but at least one. -/
def JavaType.arrayOf (element : JavaType) (dims : Nat) : JavaType :=
  Nat.repeat .array (max dims 1) element

/-- The type that applying a class to type arguments gives. -/
def JavaType.applied (base : JavaType) (args : List JavaType) : JavaType :=
  match base.className? with
  | some name => .declared name args
  | none => .unknown

namespace Expr

/-- Whether an expression is a `this` that is not written in the source. -/
def isImplicitThis : Expr → Bool
  | this info => info.span.isEmpty
  | _ => false

/-- A member of a receiver; a receiver that is not written is left out. -/
def selectFrom (receiver : Expr) (name : String) (type : JavaType) : Expr :=
  if receiver.isImplicitThis then .ident (.ofType type) name none
  else .select (.ofType type) receiver name none

end Expr

namespace ExpansionContext

/-- The type that a pattern becomes. -/
def expandType (c : ExpansionContext) (p : TypePattern) : Expanding JavaType :=
  match p.expand c.table c.bindings with
  | .ok type => return type
  | .error e => throw (.unknownClass e)

/-- What a free variable stands for. -/
def freeNamed (c : ExpansionContext) (name : String) : Expanding Expr :=
  match c.bindings.free.lookup name with
  | some e => return e
  | none => throw (.unbound (.free name))

/-- What a repeated variable stands for. -/
def repeatedNamed (c : ExpansionContext) (name : String) : Expanding (List Expr) :=
  match c.bindings.repeated.lookup name with
  | some es => return es
  | none => throw (.unbound (.repeated name))

/-- A reference to a local variable.  One that is not bound keeps its name. -/
def localNamed (c : ExpansionContext) (name : String) : Expr :=
  match c.bindings.locals.lookup name with
  | some bound =>
    let type := ((c.unit.symbol? bound.symbol).map (·.type)).getD .unknown
    .ident (.ofType type) bound.name (some bound.symbol)
  | none => .ident (.ofType .unknown) name none

/-- A type variable that is used as an expression: the expression that it was read from, or
else the syntax of the type that it stands for. -/
def typeVarNamed (c : ExpansionContext) (name : String) : Importing Expr :=
  match c.bindings.types.lookup name with
  | some ⟨_, some witness⟩ => return witness
  | some ⟨type, none⟩ => c.typeSyntax type
  | none => return .ident (.ofType (.freeVariable name)) name none

end ExpansionContext

namespace ExprPattern

mutual

/-- The expression that a pattern becomes. -/
def expand (c : ExpansionContext) : ExprPattern → Expanding Expr
  | .literal value => return .ofLiteral value
  | .free name => c.freeNamed name
  | .localVar name => return c.localNamed name
  | .typeVar name => c.typeVarNamed name
  | .classRef name => c.classReference name
  | .staticRef owner member type => do
    c.staticReference owner member (← c.expandType type)
  | .binary op left right => do
    let left ← expand c left
    let right ← expand c right
    return .binary (.ofType (op.resultType left right)) op left right
  | .unary op operand => do
    let operand ← expand c operand
    return .unary (.ofType (op.resultType operand)) op operand
  | .assign target value => do
    let target ← expand c target
    return .assign (.ofType target.type) target (← expand c value)
  | .compoundAssign op target value => do
    let target ← expand c target
    return .compoundAssign (.ofType target.type) op target (← expand c value)
  | .conditional cond yes no => do
    let cond ← expand c cond
    let yes ← expand c yes
    return .conditional (.ofType yes.type) cond yes (← expand c no)
  | .cast type operand => do
    let type ← expand c type
    return .cast (.ofType type.type) type (← expand c operand)
  | .instanceOf operand type => do
    let operand ← expand c operand
    return .instanceOf (.ofType (.primitive .boolean)) operand (← expand c type)
  | .call callee args => do
    let callee ← expand c callee
    return .call (.ofType callee.type.returned) callee (← expandList c args)
  | .select receiver name type => do
    let receiver ← expand c receiver
    return receiver.selectFrom name (← c.expandType type)
  | .index array position => do
    let array ← expand c array
    return .index (.ofType (array.type.element?.getD .unknown)) array (← expand c position)
  | .newArray element dims init => do
    let element ← expandOption c element
    let dims ← expandList c dims
    let type := (element.map fun e => e.type.arrayOf dims.length).getD .unknown
    return .newArray (.ofType type) element dims (← expandInit c init)
  | .newObject type args => do
    let type ← expand c type
    return .newObject (.ofType type.type) type (← expandList c args)
  | .paren inner => do
    let inner ← expand c inner
    return .paren (.ofType inner.type) inner
  | .primitiveType kind => return .primitiveType (.ofType (.primitive kind)) kind
  | .typeApply base args => do
    let base ← expand c base
    let args ← expandEach c args
    return .typeApply (.ofType (base.type.applied (args.map (·.type)))) base args
  | .arrayType element => do
    let element ← expand c element
    return .arrayType (.ofType (.array element.type)) element
  | .anyOf _ => throw .choice
  | .repeated name => throw (.repeatedOutsideList name)
  | .ofForm inner _ => expand c inner

/-- The expressions that the elements of a list become; a repeated variable becomes
everything that it stands for. -/
def expandList (c : ExpansionContext) : List ExprPattern → Expanding (List Expr)
  | [] => return []
  | .repeated name :: ps => do
    let bound ← c.repeatedNamed name
    return bound ++ (← expandList c ps)
  | p :: ps => do
    let e ← expand c p
    return e :: (← expandList c ps)

/-- The expressions that some patterns become, one for each. -/
def expandEach (c : ExpansionContext) : List ExprPattern → Expanding (List Expr)
  | [] => return []
  | p :: ps => do
    let e ← expand c p
    return e :: (← expandEach c ps)

/-- The optional expression that an optional pattern becomes. -/
def expandOption (c : ExpansionContext) : Option ExprPattern → Expanding (Option Expr)
  | none => return none
  | some p => return some (← expand c p)

/-- The expressions that the optional initializer of an array becomes. -/
def expandInit (c : ExpansionContext) :
    Option (List ExprPattern) → Expanding (Option (List Expr))
  | none => return none
  | some ps => return some (← expandList c ps)

end

end ExprPattern

end JavaRefactor
