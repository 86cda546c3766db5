import JavaRefactor.Hierarchy.LeastUpperBound

/-!
# Inference of type arguments

Given formal parameter types that mention free type variables, and the types of the actual
arguments, inference finds a type for each variable under which every argument can be
passed.  It *reduces* each argument to bounds on the variables, *resolves* every variable
from its bounds, and checks every argument against its instantiated parameter.

Reduction descends into the formal type.  Below a type argument the two types have to be
the same, and there reduction only records equalities (`reduceEqual`); elsewhere it is one
of three relations (`reduce`).
-/

namespace JavaRefactor

/-- Why no instantiation was found. -/
inductive InferenceError where
  | arity (expected found : Nat)
  | incompatible (expected found : JavaType)
  | conflict (var : String) (first second : JavaType)
  | unsatisfiable (var : String)
  deriving DecidableEq

/-- What a message says about a failed inference. -/
def InferenceError.message : InferenceError → String
  | arity expected found =>
    "expected " ++ toString expected ++ " arguments, found " ++ toString found
  | incompatible expected found =>
    "argument of type `" ++ found.display ++ "` is not compatible with `" ++ expected.display
      ++ "`"
  | conflict var first second =>
    "type variable `" ++ var ++ "` has conflicting instantiations `" ++ first.display
      ++ "` and `" ++ second.display ++ "`"
  | unsatisfiable var =>
    "no instantiation of `" ++ var ++ "` satisfies its bounds"

/-- How a bound restricts its variable: to be the type, to lie above it, or below it. -/
inductive BoundKind where
  | equal
  | lower
  | upper
  deriving DecidableEq, Repr

/-- A restriction of a type variable. -/
structure Bound where
  var : String
  kind : BoundKind
  type : JavaType
  deriving DecidableEq

/-- How an actual type has to relate to a formal one. -/
inductive Conversion where
  /-- The actual type is assignable, through boxing if that is allowed. -/
  | loose
  /-- The actual type is a subtype. -/
  | subtype
  /-- The actual type is a supertype. -/
  | supertype
  deriving DecidableEq, Repr

/-- The kind of bound that a conversion puts on a variable. -/
def Conversion.boundKind : Conversion → BoundKind
  | loose | subtype => .lower
  | supertype => .upper

/-- What inference works with: the known classes, whether arguments may be boxed, and the
variables to find. -/
structure InferenceContext where
  table : ClassTable
  boxing : Bool
  free : List String

namespace InferenceContext

/-! ### Reduction -/

mutual

/-- The bounds under which the formal type is the actual one. -/
def reduceEqual (c : InferenceContext) (formal actual : JavaType) :
    Except InferenceError (List Bound) :=
  if !formal.mentions c.free then
    if actual.isSame formal then .ok [] else .error (.incompatible formal actual)
  else if actual.isPrimitive then
    .error (.incompatible formal actual)
  else
    match formal, actual with
    | .var _ _ _, .wildcard _ _ => .ok []
    | .var name _ _, actual => .ok [⟨name, .equal, actual⟩]
    | .declared name args, .declared actualName actualArgs =>
      if actualName = name ∧ actualArgs.length = args.length then
        reduceEqualEach c args actualArgs
      else
        .error (.incompatible (.declared name args) (.declared actualName actualArgs))
    | .declared name args, actual => .error (.incompatible (.declared name args) actual)
    | .array element, .array actualElement => reduceEqual c element actualElement
    | .array element, actual => .error (.incompatible (.array element) actual)
    | _, _ => .ok []

/-- The bounds under which type arguments are the same place by place.  A wildcard is only
compared with a wildcard of its kind. -/
def reduceEqualEach (c : InferenceContext) :
    List JavaType → List JavaType → Except InferenceError (List Bound)
  | .wildcard kind (some bound) :: formals, .wildcard actualKind (some actualBound) :: actuals =>
    if kind = actualKind then do
      let here ← reduceEqual c bound actualBound
      let others ← reduceEqualEach c formals actuals
      return here ++ others
    else
      reduceEqualEach c formals actuals
  | .wildcard _ _ :: formals, _ :: actuals => reduceEqualEach c formals actuals
  | _ :: formals, .wildcard _ _ :: actuals => reduceEqualEach c formals actuals
  | formal :: formals, actual :: actuals => do
    let here ← reduceEqual c formal actual
    let others ← reduceEqualEach c formals actuals
    return here ++ others
  | _, _ => .ok []

end

/-- Whether a formal type without free variables admits an actual one. -/
def admits (c : InferenceContext) (conversion : Conversion) (formal actual : JavaType) : Bool :=
  match conversion with
  | .loose => c.table.isAssignable actual formal c.boxing
  | .subtype => c.table.isSubtypeUnchecked actual formal
  | .supertype => c.table.isSubtypeUnchecked formal actual

/-- The actual type as a reference type: a primitive one has to be boxed, which only the
loose conversion does. -/
def boxActual (c : InferenceContext) (conversion : Conversion) (formal actual : JavaType) :
    Except InferenceError JavaType :=
  if actual.isPrimitive then
    match actual.boxed? with
    | some wrapper =>
      if conversion = .loose ∧ c.boxing then .ok wrapper
      else .error (.incompatible formal actual)
    | none => .error (.incompatible formal actual)
  else
    .ok actual

/-- The bounds under which the actual class type is above the formal one. -/
def reduceAbove (c : InferenceContext) (formal actual : JavaType) :
    Except InferenceError (List Bound) :=
  match actual with
  | .declared actualName actualArgs =>
    match c.table.asSuper? formal actualName with
    | some (.declared _ viewArgs) =>
      if viewArgs.isEmpty ∨ actualArgs.length ≠ viewArgs.length then
        .ok []
      else
        (viewArgs.zip actualArgs).foldlM
          (fun bounds (f, a) =>
            match a with
            | .wildcard _ _ => .ok bounds
            | a => (bounds ++ ·) <$> c.reduceEqual f a)
          []
    | _ => .error (.incompatible formal actual)
  | _ => .error (.incompatible formal actual)

mutual

/-- The bounds under which the actual type converts to the formal one. -/
def reduce (c : InferenceContext) (conversion : Conversion) (formal actual : JavaType) :
    Except InferenceError (List Bound) :=
  if !formal.mentions c.free then
    if c.admits conversion formal actual then .ok [] else .error (.incompatible formal actual)
  else if actual.isNull then
    .ok []
  else
    match c.boxActual conversion formal actual with
    | .error e => .error e
    | .ok actual =>
      match formal with
      | .var name _ _ =>
        match actual with
        | .wildcard _ _ => .ok []
        | actual => .ok [⟨name, conversion.boundKind, actual⟩]
      | .declared name args =>
        match conversion with
        | .supertype => c.reduceAbove (.declared name args) actual
        | _ =>
          match c.table.asSuper? actual name with
          | some (.declared _ viewArgs) =>
            if viewArgs.isEmpty then .ok []
            else if args.length ≠ viewArgs.length then
              .error (.incompatible (.declared name args) actual)
            else reduceArguments c args viewArgs
          | _ => .error (.incompatible (.declared name args) actual)
      | .array element =>
        match actual with
        | .array actualElement =>
          if actualElement.isPrimitive then c.reduceEqual element actualElement
          else reduce c .subtype element actualElement
        | actual => .error (.incompatible (.array element) actual)
      | _ => .ok []

/-- The bounds under which type arguments of a formal type contain the actual ones place by
place. -/
def reduceArguments (c : InferenceContext) :
    List JavaType → List JavaType → Except InferenceError (List Bound)
  | formal :: formals, actual :: actuals => do
    let here ←
      match formal with
      | .wildcard kind bound => reduceWildcard c kind bound actual
      | formal =>
        match actual with
        | .wildcard _ _ => .ok []
        | actual => c.reduceEqual formal actual
    let others ← reduceArguments c formals actuals
    return here ++ others
  | _, _ => .ok []

/-- The bounds under which a wildcard contains an actual type argument. -/
def reduceWildcard (c : InferenceContext) (kind : WildcardKind) :
    Option JavaType → JavaType → Except InferenceError (List Bound)
  | none, _ => .ok []
  | some bound, actual =>
    match kind, actual with
    | .upper, .wildcard .upper (some actualBound) => reduce c .subtype bound actualBound
    | .lower, .wildcard .lower (some actualBound) => reduce c .supertype bound actualBound
    | _, .wildcard _ _ => .ok []
    | .upper, actual => reduce c .subtype bound actual
    | .lower, actual => reduce c .supertype bound actual
    | .unbounded, _ => .ok []

end

/-- The bounds under which every actual type can be passed for its formal one. -/
def reduceAll (c : InferenceContext) :
    List (JavaType × JavaType) → Except InferenceError (List Bound)
  | [] => .ok []
  | (formal, actual) :: rest => do
    let here ← c.reduce .loose formal actual
    let others ← c.reduceAll rest
    return here ++ others

/-! ### Resolution -/

/-- The types by which bounds of one kind restrict a variable, in their order. -/
def boundTypes (bounds : List Bound) (var : String) (kind : BoundKind) : List JavaType :=
  bounds.filterMap fun b =>
    if b.var = var ∧ b.kind = kind then some b.type else none

/-- The first of some upper bounds that lies below all of them, or else the first. -/
def mostSpecific? (c : InferenceContext) (uppers : List JavaType) : Option JavaType :=
  match uppers.find? fun u => uppers.all fun other => c.table.isSubtypeUnchecked u other with
  | some u => some u
  | none => uppers.head?

/-- The type that the bounds of a variable suggest: an equality bound, else the least upper
bound of the lower bounds, else an upper bound, else the root class. -/
def candidate (c : InferenceContext) (bounds : List Bound) (var : String) :
    Except InferenceError JavaType :=
  match boundTypes bounds var .equal with
  | first :: rest =>
    match rest.find? (· != first) with
    | some other => .error (.conflict var first other)
    | none => .ok first
  | [] =>
    match boundTypes bounds var .lower with
    | [] => .ok ((c.mostSpecific? (boundTypes bounds var .upper)).getD .object)
    | lowers =>
      match c.table.lub lowers with
      | some t => .ok t
      | none => .error (.unsatisfiable var)

/-- The type of a variable, provided it lies between its lower and its upper bounds. -/
def resolve (c : InferenceContext) (bounds : List Bound) (var : String) :
    Except InferenceError JavaType := do
  let solution ← c.candidate bounds var
  if (boundTypes bounds var .lower).all (c.table.isSubtypeUnchecked · solution)
      && (boundTypes bounds var .upper).all (c.table.isSubtypeUnchecked solution ·) then
    return solution
  else
    throw (.unsatisfiable var)

/-- The types of all free variables, in the order of the variables. -/
def resolveAll (c : InferenceContext) (bounds : List Bound) : Except InferenceError Substitution :=
  c.free.mapM fun v => do return (v, ← c.resolve bounds v)

/-! ### Instantiation -/

/-- An instantiated signature, and the types of its variables. -/
structure Instantiation where
  params : List JavaType
  ret : JavaType
  substitution : Substitution

/-- Instantiate a signature for some actual argument types. -/
def instantiate (c : InferenceContext) (params : List JavaType) (ret : JavaType)
    (actuals : List JavaType) : Except InferenceError Instantiation := do
  if params.length ≠ actuals.length then
    throw (.arity params.length actuals.length)
  let bounds ← c.reduceAll (params.zip actuals)
  let substitution ← c.resolveAll bounds
  let instantiated := params.map (JavaType.substitute substitution)
  match (instantiated.zip actuals).find? fun (p, a) => !c.table.isAssignable a p c.boxing with
  | some (p, a) => throw (.incompatible p a)
  | none => return ⟨instantiated, ret.substitute substitution, substitution⟩

end InferenceContext

end JavaRefactor
