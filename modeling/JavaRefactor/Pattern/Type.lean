import JavaRefactor.JavaType.Basic
import JavaRefactor.Text.Quoted

/-!
# Patterns of types

A pattern of types is a type in which class names are not resolved and the type parameters
of a template stand for types that are not known yet.  Matching binds nothing: a type
parameter accepts every type that is not primitive, and its bounds are checked later.
Quantifiers around a signature are ignored on both sides.
-/

namespace JavaRefactor

/-- A type in a pattern. -/
inductive TypePattern where
  | primitive (kind : Primitive)
  | declared (name : String) (args : List TypePattern)
  | array (element : TypePattern)
  /-- A type parameter of the template. -/
  | var (name : String)
  | wildcard (kind : WildcardKind) (bound : Option TypePattern)
  | method (params : List TypePattern) (ret : TypePattern)
  | generic (vars : List String) (signature : TypePattern)
  deriving Inhabited

/-- A type without the quantifiers in front of it. -/
def JavaType.unquantified : JavaType → JavaType
  | .generic _ signature => signature.unquantified
  | t => t

namespace TypePattern

/-- A class type without arguments. -/
abbrev ofClass (name : String) : TypePattern := .declared name []

def object : TypePattern := ofClass JavaType.objectName

/-- `boolean` or its wrapper. -/
def isBoolean : TypePattern → Bool
  | .primitive .boolean => true
  | .declared name _ => name == "java.lang.Boolean"
  | _ => false

/-! ### Matching -/

mutual

/-- Whether a type has the form of a pattern. -/
def accepts : TypePattern → JavaType → Bool
  | .primitive k, .primitive l => k == l
  | .declared name args, .declared targetName targetArgs =>
    name == targetName && acceptsEach args targetArgs
  | .array element, .array targetElement => accepts element targetElement
  | .var _, target => !target.isPrimitive
  | .wildcard kind bound, .wildcard targetKind targetBound =>
    kind == targetKind && acceptsOption bound targetBound
  | .method params ret, target =>
    match target.unquantified with
    | .method targetParams targetRet => acceptsEach params targetParams && accepts ret targetRet
    | _ => false
  | .generic _ signature, .generic _ target => accepts signature target
  | .generic _ signature, .method params ret => accepts signature (.method params ret)
  | _, _ => false

/-- Whether types have the forms of as many patterns, place by place. -/
def acceptsEach : List TypePattern → List JavaType → Bool
  | [], [] => true
  | p :: ps, t :: ts => accepts p t && acceptsEach ps ts
  | _, _ => false

/-- Whether an optional type is absent like its pattern, or has its form. -/
def acceptsOption : Option TypePattern → Option JavaType → Bool
  | none, none => true
  | some p, some t => accepts p t
  | _, _ => false

end

/-! ### Description

The form in which messages about templates show a pattern: constructor names with their
arguments. -/

/-- The word for a primitive type. -/
def primitiveWord : Primitive → String
  | .boolean => "Boolean"
  | .byte => "Byte"
  | .short => "Short"
  | .int => "Int"
  | .long => "Long"
  | .char => "Char"
  | .float => "Float"
  | .double => "Double"
  | .void => "Void"
  | .null => "Null"

/-- The word for a kind of wildcard. -/
def wildcardWord : WildcardKind → String
  | .unbounded => "Unbound"
  | .upper => "Extends"
  | .lower => "Super"

/-- Fields with their names, in braces after the name of their constructor. -/
def describeFields (constructor : String) (fields : List (String × String)) : String :=
  constructor ++ " \x7b "
    ++ ", ".intercalate (fields.map fun (name, value) => name ++ ": " ++ value) ++ " \x7d"

/-- A list in brackets. -/
def describeList (items : List String) : String := "[" ++ ", ".intercalate items ++ "]"

mutual

/-- A pattern as messages describe it. -/
def describe : TypePattern → String
  | .primitive kind => "Primitive(" ++ primitiveWord kind ++ ")"
  | .declared name args =>
    describeFields "Class"
      [("name", Text.displayed name), ("args", describeList (describeEach args))]
  | .array element => "Array(" ++ describe element ++ ")"
  | .var name => "Var(" ++ Text.displayed name ++ ")"
  | .wildcard kind bound =>
    describeFields "Wildcard" [("kind", wildcardWord kind), ("bound", describeOption bound)]
  | .method params ret =>
    describeFields "Method"
      [("params", describeList (describeEach params)), ("ret", describe ret)]
  | .generic vars signature =>
    describeFields "ForAll"
      [("vars", describeList (vars.map Text.displayed)), ("method", describe signature)]

/-- Several patterns as messages describe them. -/
def describeEach : List TypePattern → List String
  | [] => []
  | p :: ps => describe p :: describeEach ps

/-- An optional pattern as messages describe it. -/
def describeOption : Option TypePattern → String
  | none => "None"
  | some p => "Some(" ++ describe p ++ ")"

end

end TypePattern

end JavaRefactor
