import JavaRefactor.Binding
import JavaRefactor.Pattern.Type

/-!
# Matching types

A pattern of types is matched against a type while the bindings found so far are passed along, part
by part from left to right, as patterns of expressions are.  A type parameter binds nothing here, so
matching passes on the bindings that it was given, exactly if the pattern accepts the type
(`TypePattern.unify_eq`).
-/

namespace JavaRefactor

namespace TypePattern

mutual

/-- The bindings after matching a type. -/
def unify : TypePattern → JavaType → Bindings → Option Bindings
  | .primitive kind, .primitive targetKind, b => if kind = targetKind then some b else none
  | .declared name args, .declared targetName targetArgs, b =>
    if name = targetName then unifyEach args targetArgs b else none
  | .array element, .array targetElement, b => unify element targetElement b
  | .var _, target, b => if target.isPrimitive then none else some b
  | .wildcard kind bound, .wildcard targetKind targetBound, b =>
    if kind = targetKind then unifyOption bound targetBound b else none
  | .method params ret, target, b =>
    match target.unquantified with
    | .method targetParams targetRet => do
      unify ret targetRet (← unifyEach params targetParams b)
    | _ => none
  | .generic _ signature, .generic _ target, b => unify signature target b
  | .generic _ signature, .method params ret, b => unify signature (.method params ret) b
  | _, _, _ => none

/-- The bindings after matching as many types as there are patterns, place by place. -/
def unifyEach : List TypePattern → List JavaType → Bindings → Option Bindings
  | [], [], b => some b
  | p :: ps, t :: ts, b => do unifyEach ps ts (← unify p t b)
  | _, _, _ => none

/-- The bindings after matching an optional type, which must be absent exactly when its pattern
is. -/
def unifyOption : Option TypePattern → Option JavaType → Bindings → Option Bindings
  | none, none, b => some b
  | some p, some t, b => unify p t b
  | _, _, _ => none

end

/-! ### Nothing is bound -/

mutual

/-- Matching passes on the bindings that it was given if the pattern accepts the type, and else
fails. -/
theorem unify_eq : (p : TypePattern) → (t : JavaType) → (b : Bindings) →
    p.unify t b = if p.accepts t then some b else none
  | .primitive kind, t, b => by cases t <;> simp [unify, accepts]
  | .declared name args, t, b => by
    cases t with
    | declared targetName targetArgs =>
      rw [unify, accepts, unifyEach_eq args targetArgs b]
      by_cases same : name = targetName <;> simp [same]
    | _ => simp [unify, accepts]
  | .array element, t, b => by
    cases t with
    | array targetElement => rw [unify, accepts, unify_eq element targetElement b]
    | _ => simp [unify, accepts]
  | .var _, t, b => by
    rw [unify, accepts]
    cases t.isPrimitive <;> rfl
  | .wildcard kind bound, t, b => by
    cases t with
    | wildcard targetKind targetBound =>
      rw [unify, accepts, unifyOption_eq bound targetBound b]
      by_cases same : kind = targetKind <;> simp [same]
    | _ => simp [unify, accepts]
  | .method params ret, t, b => by
    rw [unify, accepts]
    cases t.unquantified with
    | method targetParams targetRet =>
      have each := unifyEach_eq params targetParams b
      cases accepted : acceptsEach params targetParams with
      | false => simp [each, accepted]
      | true => simp [each, accepted, unify_eq ret targetRet b]
    | _ => rfl
  | .generic vars signature, t, b => by
    cases t with
    | generic targetVars target => rw [unify, accepts, unify_eq signature target b]
    | method params ret => rw [unify, accepts, unify_eq signature (.method params ret) b]
    | _ => simp [unify, accepts]

theorem unifyEach_eq : (ps : List TypePattern) → (ts : List JavaType) → (b : Bindings) →
    unifyEach ps ts b = if acceptsEach ps ts then some b else none
  | [], ts, b => by cases ts <;> simp [unifyEach, acceptsEach]
  | p :: ps, ts, b => by
    cases ts with
    | nil => simp [unifyEach, acceptsEach]
    | cons t ts =>
      rw [unifyEach, acceptsEach, unify_eq p t b]
      cases p.accepts t with
      | false => rfl
      | true => exact unifyEach_eq ps ts b

theorem unifyOption_eq : (x : Option TypePattern) → (y : Option JavaType) → (b : Bindings) →
    unifyOption x y b = if acceptsOption x y then some b else none
  | none, y, b => by cases y <;> simp [unifyOption, acceptsOption]
  | some p, y, b => by
    cases y with
    | none => simp [unifyOption, acceptsOption]
    | some t => rw [unifyOption, acceptsOption, unify_eq p t b]

end

end TypePattern

end JavaRefactor
