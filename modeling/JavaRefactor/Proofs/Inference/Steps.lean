import JavaRefactor.Inference
import JavaRefactor.Proofs.Hierarchy.Forms

/-!
# The steps of reduction

Reduction first settles what needs no look at the form of the formal type: types without free
variables, `null` and primitive types.  What it does for the others is one step that depends on the
forms of both types (`InferenceContext.equateForms` for equality, `InferenceContext.compareForms`
for the other relations), and lists of type arguments are reduced place by place
(`InferenceContext.equateArguments`, `InferenceContext.compareArguments`).
-/

namespace JavaRefactor

namespace InferenceContext

variable {c : InferenceContext} {conversion : Conversion} {f a : JavaType}

/-- Nothing is recorded before some bounds. -/
theorem nothing_append (x : Except InferenceError (List Bound)) :
    (do let here ← .ok []; let others ← x; return here ++ others) = x := by
  cases x with
  | error e => rfl
  | ok bounds => rfl

/-! ### Equality -/

/-- What equating a formal type that mentions free variables with a reference records. -/
def equateForms (c : InferenceContext) (formal actual : JavaType) :
    Except InferenceError (List Bound) :=
  match formal, actual with
  | .var _ _ _, .wildcard _ _ => .ok []
  | .var name _ _, actual => .ok [⟨name, .equal, actual⟩]
  | .declared name args, .declared actualName actualArgs =>
    if actualName = name ∧ actualArgs.length = args.length then
      c.reduceEqualEach args actualArgs
    else
      .error (.incompatible (.declared name args) (.declared actualName actualArgs))
  | .declared name args, actual => .error (.incompatible (.declared name args) actual)
  | .array element, .array actualElement => c.reduceEqual element actualElement
  | .array element, actual => .error (.incompatible (.array element) actual)
  | _, _ => .ok []

/-- What equating two type arguments records.  A wildcard is only compared with a wildcard of its
kind. -/
def equateArguments (c : InferenceContext) (formal actual : JavaType) :
    Except InferenceError (List Bound) :=
  match formal, actual with
  | .wildcard kind (some bound), .wildcard actualKind (some actualBound) =>
    if kind = actualKind then c.reduceEqual bound actualBound else .ok []
  | .wildcard _ _, _ => .ok []
  | _, .wildcard _ _ => .ok []
  | formal, actual => c.reduceEqual formal actual

/-- The arguments of two types of one class are compared. -/
theorem equateForms_declared {name : String} {fs as : List JavaType}
    (length : as.length = fs.length) :
    c.equateForms (.declared name fs) (.declared name as) = c.reduceEqualEach fs as :=
  if_pos ⟨rfl, length⟩

/-- The bounds of two wildcards of one kind are compared. -/
theorem equateArguments_wildcard {kind : WildcardKind} :
    c.equateArguments (.wildcard kind (some f)) (.wildcard kind (some a)) = c.reduceEqual f a :=
  if_pos rfl

/-- A formal type without free variables has to be the actual one. -/
theorem reduceEqual_of_not_mentions (closed : f.mentions c.free = false)
    (same : a.isSame f = true) : c.reduceEqual f a = .ok [] := by
  unfold reduceEqual
  rw [closed, same]
  rfl

/-- Equating a type that mentions free variables with a reference goes by the form of the type. -/
theorem reduceEqual_eq (mentioned : f.mentions c.free = true) (reference : a.isPrimitive = false) :
    c.reduceEqual f a = c.equateForms f a := by
  unfold reduceEqual
  rw [mentioned, reference]
  rfl

/-- Type arguments are equated from left to right. -/
theorem reduceEqualEach_cons (fs as : List JavaType) :
    c.reduceEqualEach (f :: fs) (a :: as) = do
      let here ← c.equateArguments f a
      let others ← c.reduceEqualEach fs as
      return here ++ others := by
  conv_lhs => unfold reduceEqualEach
  cases f with
  | wildcard kind bound =>
    cases bound with
    | none => cases a <;> exact (nothing_append _).symm
    | some b =>
      cases a with
      | wildcard actualKind actualBound =>
        cases actualBound with
        | none => exact (nothing_append _).symm
        | some b' =>
          unfold equateArguments
          dsimp only
          split
          · rfl
          · exact (nothing_append _).symm
      | _ => exact (nothing_append _).symm
  | _ =>
    cases a with
    | wildcard _ _ => exact (nothing_append _).symm
    | _ => rfl

/-! ### Boxing -/

/-- A reference is not boxed. -/
theorem boxActual_of_reference (reference : a.isPrimitive = false) :
    c.boxActual conversion f a = .ok a := by
  unfold boxActual
  rw [reference]
  rfl

/-- A primitive argument is boxed if that is allowed. -/
theorem boxActual_wrapper {wrapper : JavaType} (boxed : a.boxed? = some wrapper)
    (boxing : c.boxing = true) : c.boxActual .loose f a = .ok wrapper := by
  unfold boxActual
  rw [if_pos (JavaType.exists_of_boxed? boxed).1, boxed]
  exact if_pos ⟨rfl, boxing⟩

/-! ### The other relations -/

/-- What comparing a formal type that mentions free variables with a reference records. -/
def compareForms (c : InferenceContext) (conversion : Conversion) (formal actual : JavaType) :
    Except InferenceError (List Bound) :=
  match formal with
  | .var name _ _ =>
    match actual with
    | .wildcard _ _ => .ok []
    | actual => .ok [⟨name, conversion.boundKind, actual⟩]
  | .declared name args =>
    match conversion with
    | .supertype => c.reduceAbove (.declared name args) actual
    | _ =>
      match c.table.asSuper? actual name with
      | some (.declared _ viewArgs) =>
        if viewArgs.isEmpty then .ok []
        else if args.length ≠ viewArgs.length then
          .error (.incompatible (.declared name args) actual)
        else c.reduceArguments args viewArgs
      | _ => .error (.incompatible (.declared name args) actual)
  | .array element =>
    match actual with
    | .array actualElement =>
      if actualElement.isPrimitive then c.reduceEqual element actualElement
      else c.reduce .subtype element actualElement
    | actual => .error (.incompatible (.array element) actual)
  | _ => .ok []

/-- What comparing two type arguments records. -/
def compareArguments (c : InferenceContext) (formal actual : JavaType) :
    Except InferenceError (List Bound) :=
  match formal with
  | .wildcard kind bound => c.reduceWildcard kind bound actual
  | formal =>
    match actual with
    | .wildcard _ _ => .ok []
    | actual => c.reduceEqual formal actual

/-- The arguments of a view are compared, unless the view is raw. -/
theorem compareForms_below {name other : String} {args viewArgs : List JavaType}
    (view : c.table.asSuper? a name = some (.declared other viewArgs)) :
    c.compareForms .subtype (.declared name args) a =
      if viewArgs.isEmpty then .ok []
      else if args.length ≠ viewArgs.length then
        .error (.incompatible (.declared name args) a)
      else c.reduceArguments args viewArgs := by
  unfold compareForms
  dsimp only
  rw [view]

/-- A reference is compared with a whole parameter as it is with parts of one. -/
theorem compareForms_loose : c.compareForms .loose f a = c.compareForms .subtype f a := by
  cases f <;> rfl

/-- A formal type without free variables has to admit the actual one. -/
theorem reduce_of_not_mentions (closed : f.mentions c.free = false)
    (admits : c.admits conversion f a = true) : c.reduce conversion f a = .ok [] := by
  unfold reduce
  rw [closed, admits]
  rfl

/-- Nothing is recorded for `null`. -/
theorem reduce_null (mentioned : f.mentions c.free = true) (value : a.isNull = true) :
    c.reduce conversion f a = .ok [] := by
  unfold reduce
  rw [mentioned, value]
  rfl

/-- Comparing a type that mentions free variables with an argument goes by the form of the type,
once the argument is boxed. -/
theorem reduce_eq {b : JavaType} (mentioned : f.mentions c.free = true) (value : a.isNull = false)
    (boxed : c.boxActual conversion f a = .ok b) :
    c.reduce conversion f a = c.compareForms conversion f b := by
  unfold reduce
  rw [mentioned, value, boxed]
  rfl

/-- Where one list of type arguments ends, nothing is left to compare. -/
theorem reduceArguments_nil {fs as : List JavaType} (h : fs = [] ∨ as = []) :
    c.reduceArguments fs as = .ok [] := by
  rcases h with rfl | rfl
  · unfold reduceArguments
    rfl
  · cases fs with
    | nil =>
      unfold reduceArguments
      rfl
    | cons _ _ =>
      unfold reduceArguments
      rfl

/-- Type arguments are compared from left to right. -/
theorem reduceArguments_cons (fs as : List JavaType) :
    c.reduceArguments (f :: fs) (a :: as) = do
      let here ← c.compareArguments f a
      let others ← c.reduceArguments fs as
      return here ++ others := by
  conv_lhs => unfold reduceArguments
  cases f with
  | wildcard kind bound => rfl
  | _ => cases a <;> rfl

end InferenceContext

end JavaRefactor
