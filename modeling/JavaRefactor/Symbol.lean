import JavaRefactor.JavaType.Basic
import JavaRefactor.Text.Dotted

/-!
# Symbols

The declarations that identifiers and member selections of a checked program resolve to.
A symbol table hands out ids in order, so a symbol sits at the index that its id names.
Classes are interned: asking for one again gives the same symbol.  Ids are numbers of 32 bits.
Only `SymbolTable.addVariable?` looks whether one is left; the other declarations require it, and
what they give for a full table is not an id (`SymbolTable.declare`).
-/

namespace JavaRefactor

/-- A handle to a symbol of a table: its index. -/
abbrev SymbolId := Nat

/-- What a symbol declares. -/
inductive SymbolKind where
  /-- A local variable or a parameter. -/
  | localVar
  | field
  | method
  | type
  deriving DecidableEq, Repr

/-- A resolved declaration. -/
structure Symbol where
  id : SymbolId
  kind : SymbolKind
  /-- The simple name. -/
  name : String
  /-- The qualified name of the enclosing class, or the package of a class. -/
  owner : Option String
  /-- The declared type; a signature for methods. -/
  type : JavaType
  isStatic : Bool
  /-- Whether the last parameter of a method takes any number of arguments. -/
  isVariadic : Bool
  deriving DecidableEq

namespace Symbol

/-- Owner and name joined by a dot, or the name alone. -/
def qualifiedName (s : Symbol) : String :=
  match s.owner with
  | some owner => owner ++ "." ++ s.name
  | none => s.name

/-- Whether the symbol is a field or a method. -/
def isMember (s : Symbol) : Bool := s.kind == .field || s.kind == .method

end Symbol

/-- The number of ids that there are: they are numbers of 32 bits. -/
def SymbolId.count : Nat := UInt32.size

/-- A table has no ids left to give. -/
structure SymbolTableFull where
  /-- The number of symbols in the table. -/
  size : Nat
  deriving DecidableEq

/-- What a message says about a full table. -/
def SymbolTableFull.message (e : SymbolTableFull) : String :=
  "symbol table is full: " ++ toString e.size ++ " symbols"

/-- The symbols of one compilation unit. -/
structure SymbolTable where
  symbols : List Symbol := []
  /-- The ids of the classes asked for so far, by qualified name. -/
  classes : List (String × SymbolId) := []
  deriving Inhabited

namespace SymbolTable

/-- The table without symbols. -/
def empty : SymbolTable := {}

/-- The number of symbols. -/
def size (t : SymbolTable) : Nat := t.symbols.length

/-- The symbol with some id. -/
def get? (t : SymbolTable) (id : SymbolId) : Option Symbol := t.symbols[id]?

/-- The id of a class that was asked for before. -/
def findClass? (t : SymbolTable) (name : String) : Option SymbolId := t.classes.lookup name

/-- Declare a symbol under the next id, whatever id it carries.  The table must have an id left: its
size is below `SymbolId.count`.  Behind that the index goes on growing, but is no id any more. -/
def declare (t : SymbolTable) (s : Symbol) : SymbolTable × SymbolId :=
  ({ t with symbols := t.symbols ++ [{ s with id := t.size }] }, t.size)

/-- Declare a local variable, in a table that has an id left. -/
def addVariable (t : SymbolTable) (name : String) (type : JavaType) : SymbolTable × SymbolId :=
  t.declare ⟨0, .localVar, name, none, type, false, false⟩

/-- Declare a local variable, or say that no id is left. -/
def addVariable? (t : SymbolTable) (name : String) (type : JavaType) :
    Except SymbolTableFull (SymbolTable × SymbolId) :=
  if t.size < SymbolId.count then .ok (t.addVariable name type) else .error ⟨t.size⟩

/-- Declare a field of a class, in a table that has an id left. -/
def addField (t : SymbolTable) (owner name : String) (type : JavaType) (isStatic : Bool) :
    SymbolTable × SymbolId :=
  t.declare ⟨0, .field, name, some owner, type, isStatic, false⟩

/-- Declare a method of a class, in a table that has an id left. -/
def addMethod (t : SymbolTable) (owner name : String) (type : JavaType)
    (isStatic isVariadic : Bool) : SymbolTable × SymbolId :=
  t.declare ⟨0, .method, name, some owner, type, isStatic, isVariadic⟩

/-- The symbol that stands for a class, before it gets an id. -/
def classSymbol (name : String) : Symbol :=
  match Dotted.split? name with
  | some (owner, simple) => ⟨0, .type, simple, some owner, .ofClass name, true, false⟩
  | none => ⟨0, .type, name, none, .ofClass name, true, false⟩

/-- The symbol of a class by qualified name, declared the first time it is asked for, for which the
table must have an id left. -/
def internClass (t : SymbolTable) (name : String) : SymbolTable × SymbolId :=
  match t.findClass? name with
  | some id => (t, id)
  | none =>
    let (extended, id) := t.declare (classSymbol name)
    ({ extended with classes := (name, id) :: extended.classes }, id)

end SymbolTable

end JavaRefactor
