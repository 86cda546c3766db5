import JavaRefactor.Tree.Stmt

/-!
# Declarations of a compilation unit

Imports, methods and types as a source file declares them.
-/

namespace JavaRefactor

/-- An import of a class, or of a static member of one. -/
structure Import where
  path : String
  isStatic : Bool
  span : Span

/-- The name that an import makes visible. -/
def Import.simpleName (i : Import) : String := Dotted.simpleName i.path

/-- A method of a class. -/
structure MethodDecl where
  name : String
  typeParams : List String
  returnType : Expr
  params : List VarDecl
  /-- The body, a block. -/
  body : Stmt
  isStatic : Bool
  span : Span

/-- A class of a compilation unit. -/
structure TypeDecl where
  /-- The simple name; the package of the unit qualifies it. -/
  name : String
  fields : List VarDecl
  methods : List MethodDecl
  span : Span

end JavaRefactor
