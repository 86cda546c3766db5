import JavaRefactor.JavaType.Basic

/-!
# Substitution, erasure and identity of types

Substitution replaces type variables by name and leaves alone the variables that a generic
signature declares itself.  Erasure drops type arguments.  Two types are *the same* when
they agree node by node, where a type variable is identified by its name alone.
-/

namespace JavaRefactor

/-- Types for type variables; the first entry for a name counts. -/
abbrev Substitution := List (String × JavaType)

namespace Substitution

/-- The substitution that sends each parameter to the argument at its place.  Of two
parameters with one name the later one counts. -/
def ofParameters (params : List String) (args : List JavaType) : Substitution :=
  (params.zip args).reverse

/-- The substitution outside of some variables. -/
def without (map : Substitution) (vars : List String) : Substitution :=
  map.filter fun entry => !vars.contains entry.1

end Substitution

namespace JavaType

mutual

/-- Replace the type variables named by a substitution. -/
def substitute (map : Substitution) : JavaType → JavaType
  | .primitive kind => .primitive kind
  | .declared name args => .declared name (substituteEach map args)
  | .array element => .array (substitute map element)
  | .var name upper lower =>
    match map.lookup name with
    | some replacement => replacement
    | none => .var name (substitute map upper) (substituteOption map lower)
  | .wildcard kind bound => .wildcard kind (substituteOption map bound)
  | .method params ret => .method (substituteEach map params) (substitute map ret)
  | .generic vars signature => .generic vars (substitute (map.without vars) signature)
  | .unknown => .unknown

/-- Substitution in each of several types. -/
def substituteEach (map : Substitution) : List JavaType → List JavaType
  | [] => []
  | t :: ts => substitute map t :: substituteEach map ts

/-- Substitution in an optional type. -/
def substituteOption (map : Substitution) : Option JavaType → Option JavaType
  | none => none
  | some t => some (substitute map t)

end

mutual

/-- Drop type arguments; a type variable and a wildcard with an upper bound become the
erasure of that bound. -/
def erase : JavaType → JavaType
  | .primitive kind => .primitive kind
  | .declared name _ => .declared name []
  | .array element => .array (erase element)
  | .var _ upper _ => erase upper
  | .wildcard .upper (some bound) => erase bound
  | .wildcard _ _ => object
  | .method params ret => .method (eraseEach params) (erase ret)
  | .generic _ signature => erase signature
  | .unknown => .unknown

/-- Erasure of each of several types. -/
def eraseEach : List JavaType → List JavaType
  | [] => []
  | t :: ts => erase t :: eraseEach ts

end

mutual

/-- Whether two types are the same type. -/
def isSame : JavaType → JavaType → Bool
  | .primitive k, .primitive l => k == l
  | .declared n as, .declared m bs => n == m && isSameEach as bs
  | .array a, .array b => isSame a b
  | .var n _ _, .var m _ _ => n == m
  | .wildcard k x, .wildcard l y => k == l && isSameOption x y
  | .method as a, .method bs b => isSameEach as bs && isSame a b
  | .generic vs a, .generic ws b => vs == ws && isSame a b
  | .unknown, .unknown => true
  | _, _ => false

/-- Whether two lists hold the same types in the same order. -/
def isSameEach : List JavaType → List JavaType → Bool
  | [], [] => true
  | a :: as, b :: bs => isSame a b && isSameEach as bs
  | _, _ => false

/-- Whether two optional types are both absent or the same type. -/
def isSameOption : Option JavaType → Option JavaType → Bool
  | none, none => true
  | some a, some b => isSame a b
  | _, _ => false

end

/-- The nearest upper bound that is not a type variable. -/
def upperBound : JavaType → JavaType
  | .var _ upper _ => upperBound upper
  | t => t

/-- Boxing conversion of a primitive type. -/
def boxed? : JavaType → Option JavaType
  | .primitive kind => kind.wrapper?.map ofClass
  | _ => none

/-- Unboxing conversion of a wrapper class. -/
def unboxed? (t : JavaType) : Option JavaType :=
  (t.className?.bind Primitive.ofWrapper?).map .primitive

/-! ### Small laws -/

/-- Types are substituted one by one. -/
theorem substituteEach_eq_map (map : Substitution) (ts : List JavaType) :
    substituteEach map ts = ts.map (substitute map) := by
  induction ts with
  | nil => rfl
  | cons t ts ih => simp [substituteEach, ih]

mutual

/-- Every type is the same as itself. -/
theorem isSame_refl : (t : JavaType) → isSame t t = true
  | .primitive _ => by simp [isSame]
  | .declared _ as => by simp [isSame, isSameEach_refl as]
  | .array a => by simp [isSame, isSame_refl a]
  | .var _ _ _ => by simp [isSame]
  | .wildcard _ x => by simp [isSame, isSameOption_refl x]
  | .method as a => by simp [isSame, isSameEach_refl as, isSame_refl a]
  | .generic _ a => by simp [isSame, isSame_refl a]
  | .unknown => by simp [isSame]

theorem isSameEach_refl : (ts : List JavaType) → isSameEach ts ts = true
  | [] => by simp [isSameEach]
  | t :: ts => by simp [isSameEach, isSame_refl t, isSameEach_refl ts]

theorem isSameOption_refl : (x : Option JavaType) → isSameOption x x = true
  | none => by simp [isSameOption]
  | some t => by simp [isSameOption, isSame_refl t]

end

end JavaType

end JavaRefactor
