import JavaRefactor.JavaType.Substitution
import JavaRefactor.Text.Dotted

/-!
# Class tables

A class table declares classes by qualified name, with their type parameters and direct
supertypes; the supertypes are written in terms of the parameters.  The root class is a
supertype of every class without being declared as one.
-/

namespace JavaRefactor

/-- A class or an interface of a class table. -/
structure ClassDecl where
  name : String
  typeParams : List String
  /-- The direct supertypes, the root class left out. -/
  supertypes : List JavaType
  isInterface : Bool
  deriving DecidableEq

namespace ClassDecl

/-- The last component of the name. -/
def simpleName (d : ClassDecl) : String := Dotted.simpleName d.name

/-- Whether some arguments make a raw type of the class: none, although it has
parameters. -/
def isRaw (d : ClassDecl) (args : List JavaType) : Bool :=
  args.isEmpty && !d.typeParams.isEmpty

/-- A declared supertype as seen from the class with some arguments.  A raw type has raw
supertypes. -/
def viewSupertype (d : ClassDecl) (args : List JavaType) (supertype : JavaType) : JavaType :=
  if d.isRaw args then
    supertype.erase
  else
    supertype.substitute (.ofParameters d.typeParams args)

/-- The direct supertypes of the class with some arguments. -/
def directSupertypes (d : ClassDecl) (args : List JavaType) : List JavaType :=
  d.supertypes.map (d.viewSupertype args)

end ClassDecl

/-- A name that a class table does not know. -/
structure UnknownClass where
  name : String
  deriving DecidableEq

/-- What a message says about an unknown class. -/
def UnknownClass.message (e : UnknownClass) : String :=
  "could not resolve class `" ++ e.name ++ "`"

/-- The classes that are known, at most one of each name. -/
structure ClassTable where
  classes : List ClassDecl

namespace ClassTable

/-- Add a class, or replace the class of the same name. -/
def add (t : ClassTable) (d : ClassDecl) : ClassTable :=
  ⟨d :: t.classes.filter fun other => other.name != d.name⟩

/-- A class by its qualified name. -/
def find? (t : ClassTable) (name : String) : Option ClassDecl :=
  t.classes.find? fun d => d.name == name

/-- Whether a class is known. -/
def contains (t : ClassTable) (name : String) : Bool := (t.find? name).isSome

/-- A class by its qualified name, or the reason why there is none. -/
def resolve (t : ClassTable) (name : String) : Except UnknownClass ClassDecl :=
  match t.find? name with
  | some d => .ok d
  | none => .error ⟨name⟩

/-- Whether a name is that of an interface. -/
def isInterface (t : ClassTable) (name : String) : Bool :=
  match t.find? name with
  | some d => d.isInterface
  | none => false

/-- The number of classes. -/
def size (t : ClassTable) : Nat := t.classes.length

/-- The number of nodes of all declared supertypes, and of the classes themselves. -/
def weight (t : ClassTable) : Nat :=
  t.classes.foldr (fun d rest => 1 + JavaType.sizeList d.supertypes + rest) 0

/-- The table in which only the root class is known. -/
def rootOnly : ClassTable := ⟨[⟨JavaType.objectName, [], [], false⟩]⟩

/-- A class that was just added is found. -/
theorem find?_add_self (t : ClassTable) (d : ClassDecl) : (t.add d).find? d.name = some d := by
  simp [find?, add]

/-- Adding a class leaves the others as they were. -/
theorem find?_add_of_ne (t : ClassTable) {d : ClassDecl} {name : String} (h : name ≠ d.name) :
    (t.add d).find? name = t.find? name := by
  have h' : (d.name == name) = false := by simpa using fun e => h e.symm
  simp only [find?, add, List.find?_cons, h']
  rw [List.find?_filter]
  congr 1
  funext other
  by_cases hn : other.name = name
  · simp [hn, h]
  · simp [hn]

end ClassTable

end JavaRefactor
