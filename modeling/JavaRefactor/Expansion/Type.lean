import JavaRefactor.Binding
import JavaRefactor.Expansion.Reference
import JavaRefactor.Hierarchy.ClassTable
import JavaRefactor.Layout.Expr
import JavaRefactor.Pattern.Type

/-!
# Expanding types

Expanding a pattern puts what its variables stand for in their places.  A pattern of types
becomes a type, in which every class is known; a type becomes type syntax, which refers to
its classes by the names that the unit allows.
-/

namespace JavaRefactor

/-- What expansion works with: the unit that receives the code, the known classes, what the
variables stand for, and how to refer to classes. -/
structure ExpansionContext where
  unit : CompilationUnit
  table : ClassTable
  bindings : Bindings
  policy : ImportPolicy

/-- What a type variable stands for; one that is not bound stays a variable. -/
def Bindings.typeNamed (b : Bindings) (name : String) : JavaType :=
  match b.types.lookup name with
  | some bound => bound.type
  | none => .freeVariable name

namespace TypePattern

mutual

/-- The type that a pattern becomes, unless it names a class that is not known. -/
def expand (table : ClassTable) (b : Bindings) : TypePattern → Except UnknownClass JavaType
  | .primitive kind => .ok (.primitive kind)
  | .declared name args => do
    let decl ← table.resolve name
    return .declared decl.name (← expandEach table b args)
  | .array element => return .array (← expand table b element)
  | .var name => .ok (b.typeNamed name)
  | .wildcard kind bound => return .wildcard kind (← expandOption table b bound)
  | .method params ret => do
    let params ← expandEach table b params
    return .method params (← expand table b ret)
  | .generic vars signature => return .generic vars (← expand table b signature)

/-- The types that some patterns become. -/
def expandEach (table : ClassTable) (b : Bindings) :
    List TypePattern → Except UnknownClass (List JavaType)
  | [] => .ok []
  | p :: ps => do
    let t ← expand table b p
    return t :: (← expandEach table b ps)

/-- The optional type that an optional pattern becomes. -/
def expandOption (table : ClassTable) (b : Bindings) :
    Option TypePattern → Except UnknownClass (Option JavaType)
  | none => .ok none
  | some p => return some (← expand table b p)

end

end TypePattern

namespace ExpansionContext

/-- The word between the `?` of a wildcard and its bound. -/
def wildcardKeyword : WildcardKind → String
  | .lower => "super"
  | .upper | .unbounded => "extends"

/-- A reference to a class. -/
def classReference (c : ExpansionContext) (name : String) : Importing Expr :=
  c.policy.classReference c.unit (Dotted.topLevelClass name) name

/-- A reference to a static member of a class. -/
def staticReference (c : ExpansionContext) (owner member : String) (type : JavaType) :
    Importing Expr :=
  c.policy.staticReference c.unit (Dotted.topLevelClass owner) owner member type

mutual

/-- The syntax of a type. -/
def typeSyntax (c : ExpansionContext) : JavaType → Importing Expr
  | .primitive kind => return .primitiveType (.ofType (.primitive kind)) kind
  | .declared name [] => c.classReference name
  | .declared name (arg :: args) => do
    let base ← c.classReference name
    let first ← typeSyntax c arg
    let others ← typeSyntaxEach c args
    return .typeApply (.ofType (.declared name (arg :: args))) base (first :: others)
  | .array element => do
    return .arrayType (.ofType (.array element)) (← typeSyntax c element)
  | .wildcard kind none => return .ident (.ofType (.wildcard kind none)) "?" none
  | .wildcard kind (some bound) => do
    let syn ← typeSyntax c bound
    return .ident (.ofType (.wildcard kind (some bound)))
      ("? " ++ wildcardKeyword kind ++ " " ++ syn.print) none
  | .var name upper lower =>
    return .ident (.ofType (.var name upper lower)) (JavaType.var name upper lower).display none
  | .method params ret =>
    return .ident (.ofType (.method params ret)) (JavaType.method params ret).display none
  | .generic vars signature =>
    return .ident (.ofType (.generic vars signature)) (JavaType.generic vars signature).display
      none
  | .unknown => return .ident (.ofType .unknown) JavaType.unknown.display none

/-- The syntax of several types. -/
def typeSyntaxEach (c : ExpansionContext) : List JavaType → Importing (List Expr)
  | [] => return []
  | t :: ts => do
    let first ← typeSyntax c t
    return first :: (← typeSyntaxEach c ts)

end

end ExpansionContext

end JavaRefactor
