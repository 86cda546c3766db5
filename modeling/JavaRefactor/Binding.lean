import JavaRefactor.Tree.Expr

/-!
# Bindings

What the variables of a pattern stand for.  There are four families of variables, and each
has values of its own: expressions for free variables, declared locals for local variables,
types for type variables and lists of expressions for repeated variables.  Within a family
a name is bound at most once; variables of different families never interfere.
-/

namespace JavaRefactor

/-- A variable of a pattern: its family and its name. -/
inductive BindingKey where
  | free (name : String)
  | localVar (name : String)
  | type (name : String)
  | repeated (name : String)
  deriving DecidableEq, Repr

/-- A variable as messages write it. -/
def BindingKey.display : BindingKey → String
  | free name => "free identifier `" ++ name ++ "`"
  | localVar name => "local variable `" ++ name ++ "`"
  | type name => "type variable `" ++ name ++ "`"
  | repeated name => "repeated variable `" ++ name ++ "`"

/-- A local variable declared in the matched code, and the name to write for it. -/
structure LocalBinding where
  symbol : SymbolId
  name : String
  deriving DecidableEq

/-- A type, with the expression it was read from if there is one. -/
structure TypeBinding where
  type : JavaType
  witness : Option Expr

/-- A variable together with what it stands for. -/
inductive Binding where
  | free (name : String) (value : Expr)
  | localVar (name : String) (value : LocalBinding)
  | type (name : String) (value : TypeBinding)
  | repeated (name : String) (values : List Expr)

/-- Why a binding operation is refused. -/
inductive BindingError where
  | alreadyBound (key : BindingKey)
  | missing (key : BindingKey)
  deriving DecidableEq

/-- What a message says about a refused binding operation. -/
def BindingError.message : BindingError → String
  | alreadyBound key => "cannot bind " ++ key.display ++ " more than once"
  | missing key => "binding for " ++ key.display ++ " does not exist"

/-! ### One family

The values of a family are listed by name, in the order in which the names were bound. -/

/-- Values by name. -/
abbrev Assignments (α : Type) := List (String × α)

namespace Assignments

/-- Bind a name that is not bound. -/
def insert? {α : Type} (entries : Assignments α) (name : String) (value : α) :
    Option (Assignments α) :=
  match entries.lookup name with
  | some _ => none
  | none => some (entries ++ [(name, value)])

/-- Give another value to a name that is bound. -/
def replace? {α : Type} (entries : Assignments α) (name : String) (value : α) :
    Option (Assignments α) :=
  match entries.lookup name with
  | some _ => some (entries.map fun entry => if entry.1 = name then (name, value) else entry)
  | none => none

/-- What is found among some entries is found before any that follow. -/
theorem lookup_append_of_lookup {α : Type} {entries more : Assignments α} {name : String}
    {value : α} (h : entries.lookup name = some value) :
    (entries ++ more).lookup name = some value := by
  induction entries with
  | nil => simp at h
  | cons entry entries ih =>
    obtain ⟨n, v⟩ := entry
    rw [List.cons_append, List.lookup_cons]
    rw [List.lookup_cons] at h
    split
    · rename_i hn
      simpa [hn] using h
    · rename_i hn
      exact ih (by simpa [hn] using h)

/-- Inserting keeps every value that was there. -/
theorem lookup_insert?_of_lookup {α : Type} {entries extended : Assignments α}
    {name other : String} {value v : α} (h : entries.insert? name value = some extended)
    (hv : entries.lookup other = some v) : extended.lookup other = some v := by
  unfold insert? at h
  split at h
  · simp at h
  · obtain rfl := Option.some.inj h
    exact lookup_append_of_lookup hv

end Assignments

/-! ### The store -/

/-- The bindings of all variables of a pattern. -/
structure Bindings where
  free : Assignments Expr := []
  locals : Assignments LocalBinding := []
  types : Assignments TypeBinding := []
  repeated : Assignments (List Expr) := []

namespace Bindings

/-- The store in which nothing is bound. -/
def empty : Bindings := {}

/-- Bind a free variable that is not bound. -/
def insertFree (b : Bindings) (name : String) (e : Expr) : Except BindingError Bindings :=
  match b.free.insert? name e with
  | some free => .ok { b with free }
  | none => .error (.alreadyBound (.free name))

/-- Bind a local variable that is not bound. -/
def insertLocal (b : Bindings) (name : String) (v : LocalBinding) :
    Except BindingError Bindings :=
  match b.locals.insert? name v with
  | some locals => .ok { b with locals }
  | none => .error (.alreadyBound (.localVar name))

/-- Bind a type variable that is not bound. -/
def insertType (b : Bindings) (name : String) (t : TypeBinding) : Except BindingError Bindings :=
  match b.types.insert? name t with
  | some types => .ok { b with types }
  | none => .error (.alreadyBound (.type name))

/-- Bind a repeated variable that is not bound. -/
def insertRepeated (b : Bindings) (name : String) (es : List Expr) :
    Except BindingError Bindings :=
  match b.repeated.insert? name es with
  | some repeated => .ok { b with repeated }
  | none => .error (.alreadyBound (.repeated name))

/-- Give another value to a free variable that is bound. -/
def replaceFree (b : Bindings) (name : String) (e : Expr) : Except BindingError Bindings :=
  match b.free.replace? name e with
  | some free => .ok { b with free }
  | none => .error (.missing (.free name))

/-- Give another value to a local variable that is bound. -/
def replaceLocal (b : Bindings) (name : String) (v : LocalBinding) :
    Except BindingError Bindings :=
  match b.locals.replace? name v with
  | some locals => .ok { b with locals }
  | none => .error (.missing (.localVar name))

/-- Give another value to a type variable that is bound. -/
def replaceType (b : Bindings) (name : String) (t : TypeBinding) : Except BindingError Bindings :=
  match b.types.replace? name t with
  | some types => .ok { b with types }
  | none => .error (.missing (.type name))

/-- Give another value to a repeated variable that is bound. -/
def replaceRepeated (b : Bindings) (name : String) (es : List Expr) :
    Except BindingError Bindings :=
  match b.repeated.replace? name es with
  | some repeated => .ok { b with repeated }
  | none => .error (.missing (.repeated name))

/-- Bind a variable that is not bound. -/
def insert (b : Bindings) : Binding → Except BindingError Bindings
  | .free name e => b.insertFree name e
  | .localVar name v => b.insertLocal name v
  | .type name t => b.insertType name t
  | .repeated name es => b.insertRepeated name es

/-- Give another value to a variable that is bound. -/
def replace (b : Bindings) : Binding → Except BindingError Bindings
  | .free name e => b.replaceFree name e
  | .localVar name v => b.replaceLocal name v
  | .type name t => b.replaceType name t
  | .repeated name es => b.replaceRepeated name es

/-- Whether a variable is bound. -/
def contains (b : Bindings) : BindingKey → Bool
  | .free name => (b.free.lookup name).isSome
  | .localVar name => (b.locals.lookup name).isSome
  | .type name => (b.types.lookup name).isSome
  | .repeated name => (b.repeated.lookup name).isSome

/-- The bound variables. -/
def keys (b : Bindings) : List BindingKey :=
  b.free.map (.free ·.1) ++ b.locals.map (.localVar ·.1) ++ b.types.map (.type ·.1)
    ++ b.repeated.map (.repeated ·.1)

/-- The number of bound variables. -/
def size (b : Bindings) : Nat := b.keys.length

/-- The symbols of the local variables that are bound. -/
def localSymbols (b : Bindings) : List SymbolId := b.locals.map fun entry => entry.2.symbol

end Bindings

end JavaRefactor
