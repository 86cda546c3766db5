import JavaRefactor.Proofs.Hierarchy.Forms
import JavaRefactor.Inference

/-!
# What reduction compares

On its way from a formal and an actual type to bounds, reduction compares parts of the two:
elements of arrays, and bounds of wildcards (`Comparison.Step`).  Some comparisons it decides
otherwise than subtyping does.  It compares the elements of arrays in one direction only, it does
not pass from a wildcard to its bound, it sees no variables in the bounds of others, and it compares
arguments of the root class.  The other comparisons are *faithful* (`Comparison.Faithful`).  In a
regular table a comparison with a ground type only leads to comparisons with ground types
(`Comparison.Reaches.isGround`), which contain no variables and are no wildcards.
-/

namespace JavaRefactor

/-- Two types that reduction compares, and how the actual one has to be related to the formal
one. -/
structure Comparison where
  conversion : Conversion
  formal : JavaType
  actual : JavaType

namespace Comparison

/-- An argument is compared with its parameter as a reference. -/
def start (formal actual : JavaType) : Comparison :=
  ⟨.subtype, formal, actual.boxed?.getD actual⟩

/-- A comparison with a formal type that mentions free variables leads to those of the elements of
arrays, and of the bounds of wildcards with the types that arguments of a view are about. -/
inductive Step (c : InferenceContext) : Comparison → Comparison → Prop where
  | element {f a : JavaType} : f.mentions c.free = true →
    Step c ⟨.subtype, .array f, .array a⟩ ⟨.subtype, f, a⟩
  | upper {name other : String} {args viewArgs : List JavaType} {actual b arg x : JavaType} :
    (JavaType.declared name args).mentions c.free = true →
      c.table.asSuper? actual name = some (.declared other viewArgs) →
        (.wildcard .upper (some b), arg) ∈ args.zip viewArgs → arg.IsAbout .upper x →
          Step c ⟨.subtype, .declared name args, actual⟩ ⟨.subtype, b, x⟩
  | lower {name other : String} {args viewArgs : List JavaType} {actual b arg x : JavaType} :
    (JavaType.declared name args).mentions c.free = true →
      c.table.asSuper? actual name = some (.declared other viewArgs) →
        (.wildcard .lower (some b), arg) ∈ args.zip viewArgs → arg.IsAbout .lower x →
          Step c ⟨.subtype, .declared name args, actual⟩ ⟨.supertype, b, x⟩

/-- A comparison leads to another in some steps. -/
def Reaches (c : InferenceContext) : Comparison → Comparison → Prop :=
  Relation.ReflTransGen (Step c)

variable {c : InferenceContext} {p q : Comparison}

/-- Steps lead to parts of the formal type. -/
theorem Step.size_lt (step : Step c p q) : q.formal.size < p.formal.size := by
  have bound_lt {kind : WildcardKind} {b : JavaType} {name : String} {args : List JavaType}
      (h : JavaType.wildcard kind (some b) ∈ args) :
      b.size < (JavaType.declared name args).size :=
    Nat.lt_trans JavaType.size_lt_wildcard (JavaType.size_lt_of_mem h)
  cases step with
  | element _ => exact Nat.lt_add_of_pos_left Nat.one_pos
  | upper _ _ hb _ => exact bound_lt (List.of_mem_zip hb).1
  | lower _ _ hb _ => exact bound_lt (List.of_mem_zip hb).1

/-- Only whole arguments are boxed. -/
theorem Step.strict (step : Step c p q) : q.conversion ≠ .loose := by
  cases step <;> exact Conversion.noConfusion

/-- Reduction decides a comparison as subtyping does. -/
structure Faithful (free : List String) (p : Comparison) : Prop where
  /-- Where the formal type mentions no free variable, neither do the bounds of its variables. -/
  bounds : p.formal.mentions free = false → ∀ v ∈ free, p.formal.occurs v = false
  /-- No type variable occurs in the actual type. -/
  actual : p.formal.mentions free = true → p.actual.VariableFree
  /-- The root class has no arguments that mention free variables. -/
  root : p.formal.mentions free = true → p.formal.className? ≠ some JavaType.objectName
  /-- No wildcard is compared with a class or an array that mentions free variables. -/
  plain : p.formal.mentions free = true → p.formal.isArray = true ∨ p.formal.isDeclared = true →
    p.conversion = .subtype → p.actual.isWildcard = false
  /-- No array that mentions free variables is compared with a type above it. -/
  direction : p.formal.mentions free = true → p.formal.isArray = true → p.conversion = .subtype

/-- A comparison with a type variable leads to no other. -/
theorem Reaches.eq_of_var {name : String} {upper : JavaType} {lower : Option JavaType}
    (reached : Reaches c p q) (isVar : p.formal = .var name upper lower) : q = p := by
  rcases Relation.ReflTransGen.cases_head reached with rfl | ⟨r, step, -⟩
  · rfl
  · cases step <;> exact absurd isVar JavaType.noConfusion

/-! ### Ground types -/

section Ground

variable {arity : String → Nat} {a x : JavaType}

/-- What an argument of a view of a ground type is about is ground. -/
theorem isGround_of_view {t : ClassTable} (regular : t.Regular arity) {name other : String}
    {viewArgs : List JavaType} {arg : JavaType} (ground : a.isGround arity false = true)
    (view : t.asSuper? a name = some (.declared other viewArgs)) (harg : arg ∈ viewArgs)
    (core : arg.core? = some x) : x.isGround arity false = true := by
  cases a with
  | declared sub args =>
    have found := Option.join_eq_some_iff.mp view
    rcases ClassTable.chain_of_asSuperWithin regular.classSupertypes found with
      ⟨-, root⟩ | ⟨-, chain⟩
    · obtain ⟨-, rfl⟩ := JavaType.declared.inj root
      exact absurd harg List.not_mem_nil
    · obtain ⟨full, -⟩ := JavaType.isGround_declared.mp ground
      obtain ⟨-, each⟩ := regular.args_of_chain full chain
      exact (ClassTable.core_of_view ground (each arg harg) core).1
  | array element =>
    rw [ClassTable.asSuper?_array] at view
    split at view
    · obtain ⟨-, rfl⟩ := JavaType.declared.inj (Option.some.inj view)
      exact absurd harg List.not_mem_nil
    · exact absurd view (by simp)
  | primitive _ =>
    rw [ClassTable.asSuper?_primitive] at view
    exact absurd view (by simp)
  | _ => exact absurd ground Bool.false_ne_true

/-- Steps lead from ground types to ground types. -/
theorem Step.isGround (regular : c.table.Regular arity) (step : Step c p q)
    (ground : p.actual.isGround arity false = true) : q.actual.isGround arity false = true := by
  cases step with
  | element _ => exact ground
  | upper _ view hb about =>
    exact isGround_of_view regular ground view (List.of_mem_zip hb).2 about.core
  | lower _ view hb about =>
    exact isGround_of_view regular ground view (List.of_mem_zip hb).2 about.core

/-- In a regular table, comparisons with ground types lead to such only. -/
theorem Reaches.isGround (regular : c.table.Regular arity) (reached : Reaches c p q)
    (ground : p.actual.isGround arity false = true) : q.actual.isGround arity false = true := by
  induction reached with
  | refl => exact ground
  | tail _ step ih => exact step.isGround regular ih

/-- Of a comparison with a ground type, only the formal type has to be looked at. -/
theorem Faithful.of_isGround {free : List String} (ground : p.actual.isGround arity false = true)
    (bounds : p.formal.mentions free = false → ∀ v ∈ free, p.formal.occurs v = false)
    (root : p.formal.mentions free = true → p.formal.className? ≠ some JavaType.objectName)
    (direction : p.formal.mentions free = true → p.formal.isArray = true →
      p.conversion = .subtype) : p.Faithful free where
  bounds := bounds
  actual _ := JavaType.variableFree_of_isGround ground
  root := root
  plain _ _ _ := by
    generalize p.actual = a at ground ⊢
    cases a with
    | wildcard _ _ => exact absurd ground Bool.false_ne_true
    | _ => rfl
  direction := direction

end Ground

end Comparison

end JavaRefactor
