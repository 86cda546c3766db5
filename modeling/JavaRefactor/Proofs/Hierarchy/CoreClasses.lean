import JavaRefactor.Hierarchy.CoreClasses
import JavaRefactor.Proofs.Hierarchy.Instances

/-!
# The core classes form a regular table

Whether a table is regular can be computed if its classes have ranks: a chain of supertypes is no
longer than the rank of its class, so the instances of supertypes above a class can be listed
(`ClassTable.mem_instances`).  The table of the core classes is regular
(`ClassTable.regular_core`).
-/

namespace JavaRefactor

namespace ClassTable

variable {t : ClassTable}

/-! ### Listing instances -/

/-- The types that a type reaches in a number of steps to direct supertypes. -/
def instances (t : ClassTable) : Nat → JavaType → List JavaType
  | 0, s => [s]
  | n + 1, s =>
    s :: match s with
      | .declared name args =>
        match t.find? name with
        | some d => (d.directSupertypes args).flatMap (instances t n)
        | none => []
      | _ => []

/-- As many steps as a class has rank reach the ends of all chains. -/
theorem mem_instances (classes : t.ClassSupertypes) {rank : String → Nat}
    (falls : ∀ name sup, t.Extends name sup → rank sup < rank name) {n : Nat} {name : String}
    (enough : rank name ≤ n) {args : List JavaType} {v : JavaType}
    (chain : t.Chain (.declared name args) v) : v ∈ t.instances n (.declared name args) := by
  induction n generalizing name args with
  | zero =>
    rcases Relation.ReflTransGen.cases_head chain with rfl | ⟨u, step, -⟩
    · exact List.mem_singleton_self _
    · obtain ⟨sup, -, -, up⟩ := step.extends classes
      exact absurd (falls _ _ up) (by omega)
  | succ n ih =>
    rcases Relation.ReflTransGen.cases_head chain with rfl | ⟨u, step, rest⟩
    · exact List.mem_cons_self
    · obtain ⟨sup, us, rfl, up⟩ := step.extends classes
      obtain ⟨d, found, -⟩ := up.exists_decl
      have lower := falls _ _ up
      refine List.mem_cons_of_mem _ ?_
      simp only [found]
      exact List.mem_flatMap.mpr
        ⟨_, (directSupertype_iff found).mp step, ih (by omega) rest⟩

/-! ### Checking a table -/

/-- The number of parameters of a class of the table. -/
def arity (t : ClassTable) (name : String) : Nat :=
  match t.find? name with
  | some d => d.typeParams.length
  | none => 0

/-- A class that stands before others in a table has a higher rank. -/
def rank (t : ClassTable) (name : String) : Nat :=
  (t.classes.dropWhile fun d => d.name != name).length

/-- Whether the supertypes of a class are admitted, stand below it in the table, and are reached
with the same arguments on all ways upwards. -/
def isRegularClass (t : ClassTable) (d : ClassDecl) : Bool :=
  d.supertypes.all (d.admits t.arity) &&
    d.supertypes.all (fun s => s.className?.all fun sup => t.rank sup < t.rank d.name) &&
    (t.instances (t.rank d.name) d.selfType).all fun v =>
      (t.instances (t.rank d.name) d.selfType).all fun w => v.className? != w.className? || v == w

/-- What the check of a class says. -/
theorem isRegularClass_iff {d : ClassDecl} :
    t.isRegularClass d = true ↔ (∀ s ∈ d.supertypes, d.admits t.arity s = true) ∧
      (∀ s ∈ d.supertypes, ∀ sup, s.className? = some sup → t.rank sup < t.rank d.name) ∧
      ∀ v ∈ t.instances (t.rank d.name) d.selfType, ∀ w ∈ t.instances (t.rank d.name) d.selfType,
        v.className? = w.className? → v = w := by
  simp [isRegularClass, and_assoc, Option.all_eq_true, imp_iff_not_or]

/-- A table of regular classes is regular if nothing is above the classes that are above all
arrays. -/
theorem regular_of_isRegularClass (each : ∀ d ∈ t.classes, t.isRegularClass d = true)
    (top : ∀ name ∈ arraySupertypes, t.supertypeNames name = []) : t.Regular t.arity := by
  have checked {name : String} {d : ClassDecl} (found : t.find? name = some d) :=
    isRegularClass_iff.mp (each d (mem_of_find? found))
  have falls : ∀ name sup, t.Extends name sup → t.rank sup < t.rank name := by
    intro name sup up
    obtain ⟨d, found, hsup⟩ := up.exists_decl
    obtain ⟨s, hs, named⟩ := List.mem_filterMap.mp hsup
    exact name_of_find? found ▸ (checked found).2.1 s hs sup named
  refine ⟨fun name d found => ?_, fun name d found => (checked found).1, ?_, top, ?_⟩
  · unfold arity
    rw [found]
  · exact fun name cycle => Nat.lt_irrefl _ (rank_lt_of_transGen falls cycle)
  · intro name d found sup vs ws left right
    have classes : t.ClassSupertypes := by
      intro name d found s hs
      obtain ⟨sup, args, rfl, -⟩ := ClassDecl.admits_iff.mp ((checked found).1 s hs)
      exact ⟨sup, args, rfl⟩
    have reached {v : JavaType} (chain : t.Chain d.selfType v) :
        v ∈ t.instances (t.rank d.name) d.selfType :=
      mem_instances classes falls (Nat.le_refl _) chain
    exact (JavaType.declared.inj
      ((checked found).2.2 _ (reached left) _ (reached right) rfl)).2

/-! ### The core classes -/

/-- The table of the core classes is regular. -/
theorem regular_core : core.Regular core.arity :=
  regular_of_isRegularClass (by decide +kernel) (by decide +kernel)

end ClassTable

end JavaRefactor
