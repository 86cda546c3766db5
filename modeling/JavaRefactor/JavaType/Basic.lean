import JavaRefactor.JavaType.Primitive

/-!
# Types

The resolved types of a checked Java program.  A class type carries its qualified name and
its type arguments in the order of declaration; a class type without arguments is either
not generic or raw.  Equality of types is decidable (`JavaType.beq_iff`).
-/

namespace JavaRefactor

/-- The kind of a wildcard: `?`, `? extends B` or `? super B`. -/
inductive WildcardKind where
  | unbounded
  | upper
  | lower
  deriving DecidableEq, Repr

/-- A resolved type. -/
inductive JavaType where
  /-- A primitive type, `void`, or the type of `null`. -/
  | primitive (kind : Primitive)
  /-- A class or interface type. -/
  | declared (name : String) (args : List JavaType)
  | array (element : JavaType)
  /-- A type variable with its bounds.  Variables of one name are the same variable,
  whatever bounds an occurrence carries. -/
  | var (name : String) (upper : JavaType) (lower : Option JavaType)
  | wildcard (kind : WildcardKind) (bound : Option JavaType)
  | method (params : List JavaType) (ret : JavaType)
  /-- A signature with type parameters of its own. -/
  | generic (vars : List String) (signature : JavaType)
  /-- The type of a node for which none was computed. -/
  | unknown
  deriving Inhabited

namespace JavaType

/-- A class type without arguments. -/
abbrev ofClass (name : String) : JavaType := .declared name []

/-- The qualified name of the root class. -/
def objectName : String := "java.lang.Object"

def object : JavaType := ofClass objectName

def string : JavaType := ofClass "java.lang.String"

/-- A type variable whose only bound is the root class. -/
def freeVariable (name : String) : JavaType := .var name object none

/-! ### Equality

Two types are compared node by node; `beq_iff` says that the comparison is equality. -/

mutual

/-- Structural comparison of two types. -/
def beq : JavaType → JavaType → Bool
  | .primitive k, .primitive l => k == l
  | .declared n as, .declared m bs => n == m && beqList as bs
  | .array a, .array b => beq a b
  | .var n a x, .var m b y => n == m && beq a b && beqOption x y
  | .wildcard k x, .wildcard l y => k == l && beqOption x y
  | .method as a, .method bs b => beqList as bs && beq a b
  | .generic vs a, .generic ws b => vs == ws && beq a b
  | .unknown, .unknown => true
  | _, _ => false

/-- Structural comparison of two lists of types. -/
def beqList : List JavaType → List JavaType → Bool
  | [], [] => true
  | a :: as, b :: bs => beq a b && beqList as bs
  | _, _ => false

/-- Structural comparison of two optional types. -/
def beqOption : Option JavaType → Option JavaType → Bool
  | none, none => true
  | some a, some b => beq a b
  | _, _ => false

end

mutual

/-- Comparing two types decides whether they are equal. -/
theorem beq_iff : (a b : JavaType) → (beq a b = true ↔ a = b)
  | .primitive _, b => by cases b <;> simp [beq]
  | .declared _ as, b => by cases b <;> simp [beq, beqList_iff as]
  | .array a, b => by cases b <;> simp [beq, beq_iff a]
  | .var _ a x, b => by
    cases b <;> simp [beq, beq_iff a, beqOption_iff x, and_assoc]
  | .wildcard _ x, b => by cases b <;> simp [beq, beqOption_iff x]
  | .method as a, b => by cases b <;> simp [beq, beqList_iff as, beq_iff a]
  | .generic _ a, b => by cases b <;> simp [beq, beq_iff a]
  | .unknown, b => by cases b <;> simp [beq]

theorem beqList_iff : (as bs : List JavaType) → (beqList as bs = true ↔ as = bs)
  | [], bs => by cases bs <;> simp [beqList]
  | a :: as, bs => by cases bs <;> simp [beqList, beq_iff a, beqList_iff as]

theorem beqOption_iff : (x y : Option JavaType) → (beqOption x y = true ↔ x = y)
  | none, y => by cases y <;> simp [beqOption]
  | some a, y => by cases y <;> simp [beqOption, beq_iff a]

end

instance : DecidableEq JavaType := fun a b => decidable_of_iff _ (beq_iff a b)

/-! ### Shape -/

/-- Primitive types and `void`; the type of `null` is not one of them. -/
def isPrimitive : JavaType → Bool
  | .primitive .null => false
  | .primitive _ => true
  | _ => false

/-- The type of `null`. -/
def isNull : JavaType → Bool
  | .primitive .null => true
  | _ => false

/-- `boolean` or its wrapper. -/
def isBoolean : JavaType → Bool
  | .primitive .boolean => true
  | .declared name _ => name == "java.lang.Boolean"
  | _ => false

/-- Classes, arrays, type variables, wildcards and the type of `null`. -/
def isReference : JavaType → Bool
  | .declared _ _ | .array _ | .var _ _ _ | .wildcard _ _ => true
  | t => t.isNull

/-- The qualified name of a class type. -/
def className? : JavaType → Option String
  | .declared name _ => some name
  | _ => none

/-- The element type of an array. -/
def element? : JavaType → Option JavaType
  | .array element => some element
  | _ => none

mutual

/-- The number of nodes of a type. -/
def size : JavaType → Nat
  | .primitive _ => 1
  | .declared _ args => 1 + sizeList args
  | .array element => 1 + size element
  | .var _ upper lower => 1 + size upper + sizeOption lower
  | .wildcard _ bound => 1 + sizeOption bound
  | .method params ret => 1 + sizeList params + size ret
  | .generic _ signature => 1 + size signature
  | .unknown => 1

/-- The number of nodes of some types together. -/
def sizeList : List JavaType → Nat
  | [] => 0
  | t :: ts => size t + sizeList ts

/-- The number of nodes of an optional type. -/
def sizeOption : Option JavaType → Nat
  | none => 0
  | some t => size t

end

/-- Every type has a node. -/
theorem size_pos (t : JavaType) : 0 < t.size := by
  cases t <;> simp only [size] <;> omega

mutual

/-- Whether one of the named type variables occurs, bounds of variables not counted. -/
def mentions (vars : List String) : JavaType → Bool
  | .primitive _ => false
  | .declared _ args => mentionsAny vars args
  | .array element => mentions vars element
  | .var name _ _ => vars.contains name
  | .wildcard _ bound => mentionsOption vars bound
  | .method params ret => mentionsAny vars params || mentions vars ret
  | .generic _ signature => mentions vars signature
  | .unknown => false

/-- Whether one of the named type variables occurs in one of the types. -/
def mentionsAny (vars : List String) : List JavaType → Bool
  | [] => false
  | t :: ts => mentions vars t || mentionsAny vars ts

/-- Whether one of the named type variables occurs in an optional type. -/
def mentionsOption (vars : List String) : Option JavaType → Bool
  | none => false
  | some t => mentions vars t

end

/-! ### Display -/

mutual

/-- A type as messages write it. -/
def display : JavaType → String
  | .primitive kind => kind.keyword
  | .declared name args =>
    if args.isEmpty then name else name ++ "<" ++ ",".intercalate (displayEach args) ++ ">"
  | .array element => display element ++ "[]"
  | .var name _ _ => name
  | .wildcard .upper (some bound) => "? extends " ++ display bound
  | .wildcard .lower (some bound) => "? super " ++ display bound
  | .wildcard _ _ => "?"
  | .method params ret => "(" ++ ",".intercalate (displayEach params) ++ ")" ++ display ret
  | .generic vars signature => "<" ++ ",".intercalate vars ++ ">" ++ display signature
  | .unknown => "<unknown>"

/-- Several types, each as messages write it. -/
def displayEach : List JavaType → List String
  | [] => []
  | t :: ts => display t :: displayEach ts

end

end JavaType

end JavaRefactor
