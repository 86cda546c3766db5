import JavaRefactor.Expansion.Stmt
import JavaRefactor.Inference
import JavaRefactor.Template.Parameters

/-!
# What templates declare

Every template declares type parameters, the arguments that its variables stand for, and
options.  A match that has the right form is accepted only if it also has the right types:
the unbound type parameters are inferred from the types of what the arguments stand for,
and every type parameter has to lie below its upper bound.
-/

namespace JavaRefactor

/-- The unit that is searched, and the classes that its types refer to. -/
structure MatchContext where
  unit : CompilationUnit
  table : ClassTable

/-- How new code is built under some bindings. -/
def MatchContext.expansion (c : MatchContext) (b : Bindings) (policy : ImportPolicy) :
    ExpansionContext :=
  ⟨c.unit, c.table, b, policy⟩

/-- The options of a template. -/
structure TemplateOptions where
  /-- Arguments are passed without boxing or unboxing. -/
  noAutoboxing : Bool := false
  /-- The rule has a negated form. -/
  alsoNegation : Bool := false
  /-- A conditional also matches with its condition negated and its branches swapped. -/
  alsoReverseTernary : Bool := false
  /-- How the replacement refers to classes. -/
  importPolicy : Option ImportPolicy := none
  deriving DecidableEq

/-- What a template declares. -/
structure TemplateHeader where
  options : TemplateOptions
  typeParams : TypeParameters
  /-- Arguments in order; a repeated one has the type of its elements. -/
  args : List (String × TypePattern)

namespace TemplateHeader

/-- The type that a match gives an argument, beside the declared one.  A repeated argument
has the least upper bound of what it stands for; it and an argument that is not used may
give none.  The whole is nothing if a declared class is not known or a bound is missing. -/
def argumentTypes (t : ClassTable) (b : Bindings) :
    List (String × TypePattern) → Option (List (JavaType × JavaType))
  | [] => some []
  | (name, declared) :: args =>
    match b.free.lookup name, (b.repeated.lookup name).getD [] with
    | some e, _ => do
      let type ← (declared.expand t b).toOption
      return (type, e.type) :: (← argumentTypes t b args)
    | none, [] => argumentTypes t b args
    | none, e :: es => do
      let found ← t.lub ((e :: es).map (·.type))
      let type ← (declared.expand t b).toOption
      return (type, found) :: (← argumentTypes t b args)

/-- Bind type variables as inference found them; one without bounds becomes `Object`. -/
def bindInferred (found : Substitution) : List String → Bindings → Option Bindings
  | [], b => some b
  | var :: vars, b =>
    match b.insertType var ⟨(found.lookup var).getD .object, none⟩ with
    | .ok b => bindInferred found vars b
    | .error _ => none

/-- Whether what a type parameter stands for lies below its upper bound. -/
def boundHolds (t : ClassTable) (b : Bindings) (p : TypeParameter) : Bool :=
  match b.types.lookup p.name, p.upper.expand t b with
  | none, _ => true
  | some bound, .ok upper => t.isSubtypeUnchecked bound.type upper
  | some _, .error _ => false

/-- The type parameters that a match has not bound. -/
def unbound (h : TemplateHeader) (b : Bindings) : List String :=
  h.typeParams.names.filter fun var => (b.types.lookup var).isNone

/-- Check the types of a match and bind the type parameters that are left.  The template may
have a result type, which then comes with the type of the matched expression. -/
def typeCheck (h : TemplateHeader) (t : ClassTable) (b : Bindings)
    (result : Option (TypePattern × JavaType)) : Option Bindings := do
  let first ← result.toList.mapM fun (declared, found) =>
    (declared.expand t b).toOption.map (·, found)
  let pairs := first ++ (← argumentTypes t b h.args)
  let free := h.unbound b
  let context : InferenceContext := ⟨t, !h.options.noAutoboxing, free⟩
  let instantiation ←
    (context.instantiate (pairs.map (·.1)) (.primitive .void) (pairs.map (·.2))).toOption
  let b ← bindInferred instantiation.substitution free b
  if h.typeParams.params.all (boundHolds t b) then some b else none

end TemplateHeader

end JavaRefactor
