import JavaRefactor.NameSet
import JavaRefactor.Unit.Basic

/-!
# References to classes and static members

New code refers to a class by its simple name if it can.  That needs an import, unless the
class is visible anyway, and it is not possible when the simple name means something else in
the unit: then the qualified name is written.  The imports that are needed accumulate while
code is built, and later references take the earlier ones into account.
-/

namespace JavaRefactor

/-- How new code refers to classes and to static members. -/
inductive ImportPolicy where
  /-- Import top-level classes and write nested ones through them. -/
  | topLevel
  /-- Import nested classes too. -/
  | direct
  /-- Like `topLevel`, but import static members and write their names alone. -/
  | staticMembers
  deriving DecidableEq, Repr

/-- The imports that new code needs. -/
structure PendingImports where
  classes : NameSet
  statics : NameSet
  deriving DecidableEq

/-- A computation that collects the imports its result needs. -/
abbrev Importing (α : Type) : Type := StateM PendingImports α

namespace PendingImports

/-- No imports. -/
def empty : PendingImports := ⟨.empty, .empty⟩

/-- One more import of a class. -/
def addClass (p : PendingImports) (path : String) : PendingImports :=
  { p with classes := p.classes.insert path }

/-- One more import of a static member. -/
def addStatic (p : PendingImports) (path : String) : PendingImports :=
  { p with statics := p.statics.insert path }

/-- Whether some name of a set ends in a simple name. -/
def endsIn (names : NameSet) (simple : String) : Bool :=
  names.names.any fun path => Dotted.simpleName path == simple

end PendingImports

namespace CompilationUnit

/-- Whether the simple name of a class is taken, in the unit or by a pending import. -/
def isClassNameTaken (u : CompilationUnit) (pending : PendingImports) (simple : String) :
    Bool :=
  (u.classImport? simple).isSome || u.declaresType simple
    || PendingImports.endsIn pending.classes simple

/-- Whether the name of a static member is taken by an import, present or pending. -/
def isStaticNameTaken (u : CompilationUnit) (pending : PendingImports) (name : String) : Bool :=
  (u.staticImport? name).isSome || PendingImports.endsIn pending.statics name

/-- Whether the classes of a package are visible without imports. -/
def seesPackage (u : CompilationUnit) (package : String) : Bool :=
  package == "java.lang" || u.package == some package

/-- Make the simple name of a class refer to it, importing it if that is needed.  The
answer is false if the name is taken. -/
def importClass (u : CompilationUnit) (path : String) : Importing Bool := do
  let pending ← get
  if u.hasImport path false || pending.classes.contains path then
    return true
  else if u.isClassNameTaken pending (Dotted.simpleName path) then
    return false
  else if u.seesPackage (Dotted.qualifier path) then
    return true
  else
    set (pending.addClass path)
    return true

/-- Make the name of a static member refer to it, importing it if that is needed.  The
answer is false if the name is taken. -/
def importStatic (u : CompilationUnit) (path name : String) : Importing Bool := do
  let pending ← get
  if u.hasImport path true || pending.statics.contains path then
    return true
  else if u.isStaticNameTaken pending name then
    return false
  else
    set (pending.addStatic path)
    return true

end CompilationUnit

/-- The name by which code refers to a class through an import: the simple name of what is
imported, followed by what the class adds to it. -/
def nameThroughImport (imported qualified : String) : String :=
  match imported.toList.isPrefixOf? qualified.toList with
  | some nested => Dotted.simpleName imported ++ String.ofList nested
  | none => Dotted.simpleName imported

namespace ImportPolicy

/-- What is imported to refer to a class. -/
def importedPath (policy : ImportPolicy) (topLevel qualified : String) : String :=
  match policy with
  | .topLevel | .staticMembers => topLevel
  | .direct => qualified

/-- A reference to a class, given the top-level class around it. -/
def classReference (policy : ImportPolicy) (u : CompilationUnit) (topLevel qualified : String) :
    Importing Expr := do
  let imported := policy.importedPath topLevel qualified
  let written :=
    if ← u.importClass imported then nameThroughImport imported qualified else qualified
  return .qualifiedName written (.ofClass qualified)

/-- A reference to a static member of a class, given the top-level class around that. -/
def staticReference (policy : ImportPolicy) (u : CompilationUnit)
    (topLevel owner member : String) (type : JavaType) : Importing Expr := do
  if policy = .staticMembers then
    if ← u.importStatic (owner ++ "." ++ member) member then
      return .ident (.ofType type) member none
  let receiver ← policy.classReference u topLevel owner
  return .select (.ofType type) receiver member none

end ImportPolicy

end JavaRefactor
