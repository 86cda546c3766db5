import JavaRefactor.Hierarchy.Subtyping
import JavaRefactor.Proofs.Hierarchy.Ancestry

/-!
# Chains of supertypes

The view of a type as a class stands at the end of a chain of supertypes, each a direct
supertype of the one before (`ClassTable.chain_of_asSuperWithin`), and where the search
finds no view there is no such chain (`ClassTable.not_chain_of_asSuperWithin`).  If declared
supertypes are class types, a chain of types is a way through the classes
(`ClassTable.Chain.inherits`, `ClassTable.Inherits.exists_chain`), so in an acyclic table the
search ends after as many steps as the class has rank (`ClassTable.asSuperWithin_isSome`).
-/

namespace JavaRefactor

/-! ### The first view -/

section FirstView

variable {view : JavaType → Option (Option JavaType)} {ss : List JavaType}

/-- A view that is found is the view of one of the types. -/
theorem exists_mem_of_firstView {v : JavaType} (h : firstView view ss = some (some v)) :
    ∃ s ∈ ss, view s = some (some v) := by
  induction ss with
  | nil => exact absurd h (by simp [firstView])
  | cons s ss ih =>
    unfold firstView at h
    split at h
    · obtain ⟨u, hu, found⟩ := ih h
      exact ⟨u, List.mem_cons_of_mem _ hu, found⟩
    · exact ⟨s, List.mem_cons_self, h⟩

/-- Where no view is found, none of the types has one. -/
theorem forall_mem_of_firstView (h : firstView view ss = some none) :
    ∀ s ∈ ss, view s = some none := by
  induction ss with
  | nil => exact fun _ hs => absurd hs List.not_mem_nil
  | cons s ss ih =>
    unfold firstView at h
    split at h
    · rename_i none_here
      exact List.forall_mem_cons.mpr ⟨none_here, ih h⟩
    · rename_i other
      exact absurd h other

/-- The search through some types ends if it ends for each of them. -/
theorem firstView_isSome (h : ∀ s ∈ ss, (view s).isSome = true) :
    (firstView view ss).isSome = true := by
  induction ss with
  | nil => rfl
  | cons s ss ih =>
    obtain ⟨here, rest⟩ := List.forall_mem_cons.mp h
    unfold firstView
    split
    · exact ih rest
    · exact here

end FirstView

/-! ### Direct supertypes -/

/-- Seen from a class, a supertype that is a class type stays a type of the same class. -/
theorem ClassDecl.exists_viewSupertype (d : ClassDecl) (args : List JavaType) (sup : String)
    (us : List JavaType) : ∃ vs, d.viewSupertype args (.declared sup us) = .declared sup vs := by
  unfold viewSupertype
  split
  · exact ⟨_, rfl⟩
  · exact ⟨_, rfl⟩

namespace ClassTable

variable {t : ClassTable}

/-- A type is a declared supertype of a class, seen with the arguments that the class has. -/
inductive DirectSupertype (t : ClassTable) : JavaType → JavaType → Prop where
  | declared {name : String} {args : List JavaType} {d : ClassDecl} {s : JavaType} :
    t.find? name = some d → s ∈ d.supertypes →
      DirectSupertype t (.declared name args) (d.viewSupertype args s)

/-- A type is reached from another by passing to direct supertypes. -/
def Chain (t : ClassTable) : JavaType → JavaType → Prop :=
  Relation.ReflTransGen t.DirectSupertype

/-- All declared supertypes are class types. -/
def ClassSupertypes (t : ClassTable) : Prop :=
  ∀ name d, t.find? name = some d → ∀ s ∈ d.supertypes, ∃ sup args, s = .declared sup args

/-- It is enough to look at the declared supertypes of all classes in the table. -/
theorem classSupertypes_of_forall_mem
    (h : ∀ d ∈ t.classes, ∀ s ∈ d.supertypes, ∃ sup args, s = .declared sup args) :
    t.ClassSupertypes :=
  fun _ d found => h d (mem_of_find? found)

/-- The direct supertypes of a class type. -/
theorem directSupertype_iff {name : String} {args : List JavaType} {d : ClassDecl}
    (found : t.find? name = some d) {v : JavaType} :
    t.DirectSupertype (.declared name args) v ↔ v ∈ d.directSupertypes args := by
  constructor
  · rintro ⟨found', hs⟩
    obtain rfl := Option.some.inj (found.symm.trans found')
    exact List.mem_map_of_mem hs
  · intro hv
    obtain ⟨s, hs, rfl⟩ := List.mem_map.mp hv
    exact .declared found hs

/-- Only class types have direct supertypes. -/
theorem eq_of_chain_of_not_declared {s v : JavaType} (chain : t.Chain s v)
    (other : s.className? = none) : v = s := by
  rcases Relation.ReflTransGen.cases_head chain with rfl | ⟨u, ⟨_, _⟩, _⟩
  · rfl
  · exact absurd other (by simp [JavaType.className?])

/-! ### Types and classes -/

/-- A direct supertype of a class type is a class type, of a class that its class extends. -/
theorem DirectSupertype.extends (supers : t.ClassSupertypes) {name : String}
    {args : List JavaType} {v : JavaType} (h : t.DirectSupertype (.declared name args) v) :
    ∃ sup vs, v = .declared sup vs ∧ t.Extends name sup := by
  obtain ⟨found, hs⟩ := h
  rename_i d s
  obtain ⟨sup, us, rfl⟩ := supers name d found s hs
  obtain ⟨vs, hvs⟩ := d.exists_viewSupertype args sup us
  exact ⟨sup, vs, hvs, (extends_iff found).mpr ⟨_, hs, rfl⟩⟩

/-- What a chain reaches is a type of a class above. -/
theorem Chain.inherits (supers : t.ClassSupertypes) {name : String} {args : List JavaType}
    {v : JavaType} (chain : t.Chain (.declared name args) v) :
    ∃ sup vs, v = .declared sup vs ∧ t.Inherits name sup := by
  induction chain with
  | refl => exact ⟨name, args, rfl, .refl⟩
  | tail _ step ih =>
    obtain ⟨sup, vs, rfl, way⟩ := ih
    obtain ⟨top, us, rfl, last⟩ := step.extends supers
    exact ⟨top, us, rfl, way.tail last⟩

/-- A proper step in a chain of class types is a proper step upwards. -/
theorem Chain.transGen (supers : t.ClassSupertypes) {name sup : String}
    {args vs : List JavaType} {s : JavaType} (step : t.DirectSupertype (.declared name args) s)
    (chain : t.Chain s (.declared sup vs)) : Relation.TransGen t.Extends name sup := by
  obtain ⟨next, us, rfl, first⟩ := step.extends supers
  obtain ⟨_, _, same, way⟩ := chain.inherits supers
  obtain ⟨rfl, -⟩ := JavaType.declared.inj same
  exact .head' first way

/-- A way through the classes is followed by a chain from every type of the class. -/
theorem Inherits.exists_chain {name sup : String} (way : t.Inherits name sup)
    (args : List JavaType) : ∃ vs, t.Chain (.declared name args) (.declared sup vs) := by
  induction way with
  | refl => exact ⟨args, .refl⟩
  | tail _ step ih =>
    obtain ⟨us, chain⟩ := ih
    obtain ⟨d, found, hsup⟩ := Extends.exists_decl step
    obtain ⟨s, hs, named⟩ := List.mem_filterMap.mp hsup
    cases s with
    | declared top ws =>
      obtain rfl := Option.some.inj named
      obtain ⟨vs, hvs⟩ := d.exists_viewSupertype us top ws
      exact ⟨vs, chain.tail (hvs ▸ .declared found hs)⟩
    | _ => exact absurd named (by simp [JavaType.className?])

/-! ### The search -/

/-- A view stands at the end of a chain, unless it is the root class. -/
theorem chain_of_asSuperWithin {n : Nat} {name target : String} {args : List JavaType}
    {v : JavaType} (supers : t.ClassSupertypes)
    (h : t.asSuperWithin n (.declared name args) target = some (some v)) :
    target = JavaType.objectName ∧ v = .object ∨
      v.className? = some target ∧ t.Chain (.declared name args) v := by
  induction n generalizing name args with
  | zero => exact absurd h (by simp [asSuperWithin])
  | succ n ih =>
    unfold asSuperWithin at h
    split at h
    · rename_i same
      obtain rfl := Option.some.inj (Option.some.inj h)
      exact .inr ⟨congrArg some same, .refl⟩
    · split at h
      · rename_i root
        exact .inl ⟨root, (Option.some.inj (Option.some.inj h)).symm⟩
      · split at h
        · exact absurd h (by simp)
        · rename_i d found
          obtain ⟨s, hs, hview⟩ := exists_mem_of_firstView h
          have step := (directSupertype_iff found).mpr hs
          obtain ⟨sup, vs, rfl, -⟩ := step.extends supers
          rcases ih hview with root | ⟨named, chain⟩
          · exact .inl root
          · exact .inr ⟨named, .head step chain⟩

/-- The view as a class other than the root class is a type of the class at the end of a chain. -/
theorem exists_chain_of_asSuperWithin {n : Nat} {name target : String} {args : List JavaType}
    {v : JavaType} (supers : t.ClassSupertypes) (proper : target ≠ JavaType.objectName)
    (h : t.asSuperWithin n (.declared name args) target = some (some v)) :
    ∃ vs, v = .declared target vs ∧ t.Chain (.declared name args) (.declared target vs) := by
  rcases chain_of_asSuperWithin supers h with ⟨root, -⟩ | ⟨named, chain⟩
  · exact absurd root proper
  · obtain ⟨_, vs, rfl, -⟩ := chain.inherits supers
    obtain rfl := Option.some.inj named
    exact ⟨vs, rfl, chain⟩

/-- Where the search finds no view as a class, no chain leads to a type of the class. -/
theorem not_chain_of_asSuperWithin {n : Nat} {s v : JavaType} {target : String}
    (h : t.asSuperWithin n s target = some none) (chain : t.Chain s v) :
    v.className? ≠ some target := by
  induction n generalizing s with
  | zero => exact absurd h (by simp [asSuperWithin])
  | succ n ih =>
    cases s with
    | declared name args =>
      unfold asSuperWithin at h
      split at h
      · exact absurd h (by simp)
      · rename_i other
        split at h
        · exact absurd h (by simp)
        · rcases Relation.ReflTransGen.cases_head chain with rfl | ⟨u, step, rest⟩
          · exact fun named => other (Option.some.inj named)
          · obtain ⟨found, hs⟩ := step
            rw [found] at h
            exact ih (forall_mem_of_firstView h _ (List.mem_map_of_mem hs)) rest
    | _ =>
      rw [eq_of_chain_of_not_declared chain rfl]
      simp [JavaType.className?]

/-- In a table of falling ranks the search from a class type ends after as many steps as the
class has rank. -/
theorem asSuperWithin_isSome (supers : t.ClassSupertypes) {rank : String → Nat}
    (falls : ∀ name sup, t.Extends name sup → rank sup < rank name) {n : Nat} {name : String}
    (enough : rank name < n) (args : List JavaType) (target : String) :
    (t.asSuperWithin n (.declared name args) target).isSome = true := by
  induction n generalizing name args with
  | zero => exact absurd enough (Nat.not_lt_zero _)
  | succ n ih =>
    unfold asSuperWithin
    split
    · rfl
    · split
      · rfl
      · split
        · rfl
        · rename_i d found
          refine firstView_isSome fun s hs => ?_
          obtain ⟨sup, vs, rfl, step⟩ :=
            ((directSupertype_iff found).mpr hs).extends supers
          exact ih (Nat.lt_of_lt_of_le (falls _ _ step) (Nat.lt_succ_iff.mp enough)) vs

/-- In an acyclic table every search from a class type ends within as many steps as there are
classes, and one more. -/
theorem Acyclic.asSuperWithin_isSome (acyclic : t.Acyclic) (supers : t.ClassSupertypes) {n : Nat}
    (enough : t.size < n) (name : String) (args : List JavaType) (target : String) :
    (t.asSuperWithin n (.declared name args) target).isSome = true := by
  obtain ⟨rank, bounded, falls⟩ := acyclic.exists_rank
  exact ClassTable.asSuperWithin_isSome supers falls (Nat.lt_of_le_of_lt (bounded name) enough)
    args target

/-- A search that ends finds a view as every class above. -/
theorem exists_view_of_inherits {n : Nat} {name target : String} {args : List JavaType}
    (ends : (t.asSuperWithin n (.declared name args) target).isSome = true)
    (way : t.Inherits name target) :
    ∃ v, t.asSuperWithin n (.declared name args) target = some (some v) := by
  obtain ⟨answer, found⟩ := Option.isSome_iff_exists.mp ends
  cases answer with
  | some v => exact ⟨v, found⟩
  | none =>
    obtain ⟨vs, chain⟩ := way.exists_chain args
    exact absurd rfl (not_chain_of_asSuperWithin found chain)

end ClassTable

end JavaRefactor
