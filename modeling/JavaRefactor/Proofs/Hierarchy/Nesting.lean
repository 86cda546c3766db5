import JavaRefactor.Proofs.Hierarchy.Views
import JavaRefactor.Proofs.JavaType.Occurrence
import Mathlib.Order.Monotone.Defs

/-!
# How deep lower-bounded wildcards nest

A wildcard `? super B` turns the question of containment around: the bound is then asked to be
below the argument.  What bounds the number of these turns is how deep such wildcards nest in
a type, where a class type also counts those that its declared supertypes bring in.  A
`Grading` says how deep a class type counts, from the depth of its arguments.  A table is
graded if no declared supertype counts deeper than its class (`ClassTable.Graded`); then the
views of a type as other classes count no deeper than the type itself
(`ClassTable.Graded.turns_view`).
-/

namespace JavaRefactor

/-- How deep the class types of each class count, from the depth of their arguments. -/
structure Grading where
  depth : String → Nat → Nat
  le_depth : ∀ name m, m ≤ depth name m
  depth_mono : ∀ name, Monotone (depth name)

namespace JavaType

mutual

/-- How deep lower-bounded wildcards nest in a type, where a type variable counts as deep as
given, or as its bounds. -/
def nesting (g : Grading) (given : String → Nat) : JavaType → Nat
  | .declared name args => g.depth name (nestingEach g given args)
  | .array element => nesting g given element
  | .var name upper lower =>
    max (given name) (max (nesting g given upper) (nestingOption g given lower))
  | .wildcard .lower bound => nestingOption g given bound + 1
  | .wildcard _ bound => nestingOption g given bound
  | .primitive _ | .method _ _ | .generic _ _ | .unknown => 0

/-- The deepest that lower-bounded wildcards nest in some types. -/
def nestingEach (g : Grading) (given : String → Nat) : List JavaType → Nat
  | [] => 0
  | t :: ts => max (nesting g given t) (nestingEach g given ts)

/-- How deep lower-bounded wildcards nest in an optional type. -/
def nestingOption (g : Grading) (given : String → Nat) : Option JavaType → Nat
  | none => 0
  | some t => nesting g given t

end

variable {g : Grading} {given : String → Nat}

/-- A type nests no deeper than the types that it is among. -/
theorem nesting_le_nestingEach {arg : JavaType} {args : List JavaType} (h : arg ∈ args) :
    arg.nesting g given ≤ nestingEach g given args := by
  induction args with
  | nil => exact absurd h List.not_mem_nil
  | cons t ts ih =>
    rw [nestingEach]
    rcases List.mem_cons.mp h with rfl | h
    · exact Nat.le_max_left _ _
    · exact Nat.le_trans (ih h) (Nat.le_max_right _ _)

/-- A class type counts at least as deep as each of its arguments. -/
theorem nesting_le_of_mem {name : String} {arg : JavaType} {args : List JavaType}
    (h : arg ∈ args) : arg.nesting g given ≤ (declared name args).nesting g given :=
  Nat.le_trans (nesting_le_nestingEach h) (g.le_depth name _)

/-- A lower bound counts less deep than its wildcard. -/
theorem nesting_lt_lower (bound : JavaType) :
    bound.nesting g given < (wildcard .lower (some bound)).nesting g given :=
  Nat.lt_succ_self _

/-- A bound counts at most as deep as its wildcard. -/
theorem nesting_le_wildcard (kind : WildcardKind) (bound : JavaType) :
    bound.nesting g given ≤ (wildcard kind (some bound)).nesting g given := by
  cases kind with
  | lower => exact Nat.le_of_lt (nesting_lt_lower bound)
  | _ => exact Nat.le_refl _

/-- A type variable counts at least as deep as its bounds. -/
theorem nesting_bounds (name : String) (upper : JavaType) (lower : Option JavaType) :
    upper.nesting g given ≤ (var name upper lower).nesting g given ∧
      ∀ x, lower = some x → x.nesting g given ≤ (var name upper lower).nesting g given := by
  rw [nesting]
  refine ⟨by omega, ?_⟩
  rintro x rfl
  rw [nestingOption]
  omega

/-! ### Substitution -/

variable {map : Substitution} {given' : String → Nat}

mutual

/-- Substitution makes no type count deeper, if no variable then counts deeper. -/
theorem nesting_substitute
    (replaced : ∀ name r, map.lookup name = some r → r.nesting g given ≤ given' name)
    (kept : ∀ name, map.lookup name = none → given name ≤ given' name) :
    (t : JavaType) → (t.substitute map).nesting g given ≤ t.nesting g given'
  | .primitive _ => Nat.le_refl _
  | .method _ _ => Nat.le_refl _
  | .generic _ _ => Nat.le_refl _
  | .unknown => Nat.le_refl _
  | .declared name args => g.depth_mono name (nestingEach_substitute replaced kept args)
  | .array element => nesting_substitute replaced kept element
  | .var name upper lower => by
    rw [substitute, nesting]
    split
    · rename_i r found
      exact Nat.le_trans (replaced name r found) (Nat.le_max_left _ _)
    · rename_i free
      rw [nesting]
      have inUpper := nesting_substitute replaced kept upper
      have inLower := nestingOption_substitute replaced kept lower
      have here := kept name free
      omega
  | .wildcard .lower bound => Nat.succ_le_succ (nestingOption_substitute replaced kept bound)
  | .wildcard .upper bound => nestingOption_substitute replaced kept bound
  | .wildcard .unbounded bound => nestingOption_substitute replaced kept bound

theorem nestingEach_substitute
    (replaced : ∀ name r, map.lookup name = some r → r.nesting g given ≤ given' name)
    (kept : ∀ name, map.lookup name = none → given name ≤ given' name) :
    (ts : List JavaType) → nestingEach g given (substituteEach map ts) ≤ nestingEach g given' ts
  | [] => Nat.le_refl _
  | t :: ts => by
    rw [substituteEach, nestingEach, nestingEach]
    have here := nesting_substitute replaced kept t
    have rest := nestingEach_substitute replaced kept ts
    omega

theorem nestingOption_substitute
    (replaced : ∀ name r, map.lookup name = some r → r.nesting g given ≤ given' name)
    (kept : ∀ name, map.lookup name = none → given name ≤ given' name) :
    (x : Option JavaType) →
      nestingOption g given (substituteOption map x) ≤ nestingOption g given' x
  | none => Nat.le_refl _
  | some t => nesting_substitute replaced kept t

end

/-- How deep lower-bounded wildcards nest in a type of a program, whose variables count as
deep as their bounds. -/
abbrev turns (g : Grading) (t : JavaType) : Nat := t.nesting g fun _ => 0

end JavaType

/-! ### Types without lower bounds -/

/-- Class types count as deep as their arguments. -/
def Grading.plain : Grading where
  depth _ m := m
  le_depth _ _ := Nat.le_refl _
  depth_mono _ := monotone_id

namespace JavaType

variable {given : String → Nat} {m : Nat}

mutual

/-- What type variables count comes on top of the wildcards of a type at most once. -/
theorem nesting_plain_le (bounded : ∀ name, given name ≤ m) :
    (t : JavaType) → t.nesting .plain given ≤ t.nesting .plain (fun _ => 0) + m
  | .primitive _ => Nat.zero_le _
  | .method _ _ => Nat.zero_le _
  | .generic _ _ => Nat.zero_le _
  | .unknown => Nat.zero_le _
  | .declared _ args => nestingEach_plain_le bounded args
  | .array element => nesting_plain_le bounded element
  | .var name upper lower => by
    rw [nesting, nesting]
    have inUpper := nesting_plain_le bounded upper
    have inLower := nestingOption_plain_le bounded lower
    have here := bounded name
    omega
  | .wildcard .lower bound => by
    rw [nesting, nesting, Nat.add_right_comm]
    exact Nat.succ_le_succ (nestingOption_plain_le bounded bound)
  | .wildcard .upper bound => nestingOption_plain_le bounded bound
  | .wildcard .unbounded bound => nestingOption_plain_le bounded bound

theorem nestingEach_plain_le (bounded : ∀ name, given name ≤ m) : (ts : List JavaType) →
    nestingEach .plain given ts ≤ nestingEach .plain (fun _ => 0) ts + m
  | [] => Nat.zero_le _
  | t :: ts => by
    rw [nestingEach, nestingEach]
    have here := nesting_plain_le bounded t
    have rest := nestingEach_plain_le bounded ts
    omega

theorem nestingOption_plain_le (bounded : ∀ name, given name ≤ m) : (x : Option JavaType) →
    nestingOption .plain given x ≤ nestingOption .plain (fun _ => 0) x + m
  | none => Nat.zero_le _
  | some t => nesting_plain_le bounded t

end

end JavaType

/-! ### Tables -/

/-- The type parameters of a class count as deep as given, other type variables not. -/
def ClassDecl.parametersAt (d : ClassDecl) (m : Nat) : String → Nat :=
  fun name => if name ∈ d.typeParams then m else 0

/-- No declared supertype counts deeper than its class, however deep the arguments are, and the
root class does not count. -/
structure ClassTable.Graded (t : ClassTable) (g : Grading) : Prop where
  root : g.depth JavaType.objectName 0 = 0
  supertypes : ∀ name d, t.find? name = some d → ∀ s ∈ d.supertypes, ∀ m,
    s.nesting g (d.parametersAt m) ≤ g.depth name m

namespace ClassTable

variable {t : ClassTable} {g : Grading}

/-- A table is graded if its classes are. -/
theorem graded_of_forall_mem (root : g.depth JavaType.objectName 0 = 0)
    (h : ∀ d ∈ t.classes, ∀ s ∈ d.supertypes, ∀ m,
      s.nesting g (d.parametersAt m) ≤ g.depth d.name m) : t.Graded g where
  root := root
  supertypes _ d found s hs m := name_of_find? found ▸ h d (mem_of_find? found) s hs m

/-- A table is graded if no declared supertype has a lower-bounded wildcard. -/
theorem graded_plain (h : ∀ d ∈ t.classes, ∀ s ∈ d.supertypes, s.turns .plain = 0) :
    t.Graded .plain := by
  refine graded_of_forall_mem rfl fun d hd s hs m => ?_
  have bounded (name : String) : d.parametersAt m name ≤ m := by
    unfold ClassDecl.parametersAt
    split <;> omega
  calc s.nesting .plain (d.parametersAt m)
      ≤ s.turns .plain + m := JavaType.nesting_plain_le bounded s
    _ = m := by rw [h d hd s hs, Nat.zero_add]

namespace Graded

variable (graded : t.Graded g)
include graded

/-- The root class does not count. -/
theorem turns_object : JavaType.object.turns g = 0 := graded.root

/-- A direct supertype counts no deeper than the class type. -/
theorem turns_directSupertype (supers : t.ClassSupertypes) {a v : JavaType}
    (step : t.DirectSupertype a v) : v.turns g ≤ a.turns g := by
  obtain ⟨found, hs⟩ := step
  rename_i name args d s
  obtain ⟨sup, us, rfl⟩ := supers name d found s hs
  unfold ClassDecl.viewSupertype
  split
  · -- a raw type has raw supertypes, and its own arguments do not count
    rename_i raw
    have none : args = [] := List.isEmpty_iff.mp (Bool.and_eq_true_iff.mp raw).1
    calc g.depth sup 0
        ≤ (JavaType.declared sup us).nesting g (d.parametersAt 0) :=
          g.depth_mono sup (Nat.zero_le _)
      _ ≤ g.depth name 0 := graded.supertypes name d found _ hs 0
      _ = (JavaType.declared name args).turns g := by rw [none]; rfl
  · refine Nat.le_trans (JavaType.nesting_substitute ?_ (fun _ _ => Nat.zero_le _) _)
      (graded.supertypes name d found _ hs (JavaType.nestingEach g (fun _ => 0) args))
    intro param r lookup
    obtain ⟨declared, given⟩ := Substitution.mem_of_lookup_ofParameters lookup
    rw [ClassDecl.parametersAt, if_pos declared]
    exact JavaType.nesting_le_nestingEach given

/-- A view of a type as a class counts no deeper than the type. -/
theorem turns_view (supers : t.ClassSupertypes) {n : Nat} {name target : String}
    {args : List JavaType} {v : JavaType}
    (found : t.asSuperWithin n (.declared name args) target = some (some v)) :
    v.turns g ≤ (JavaType.declared name args).turns g := by
  rcases chain_of_asSuperWithin supers found with ⟨-, rfl⟩ | ⟨-, chain⟩
  · rw [graded.turns_object]
    exact Nat.zero_le _
  · clear found
    induction chain with
    | refl => exact Nat.le_refl _
    | tail _ step ih => exact Nat.le_trans (graded.turns_directSupertype supers step) ih

end Graded

end ClassTable

end JavaRefactor
