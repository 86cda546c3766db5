import JavaRefactor.Hierarchy.Supertype
import Mathlib.Data.Finset.Card
import Mathlib.Logic.Relation

/-!
# The order of classes

A class extends the classes that its declared supertypes name.  A table is acyclic if no class
is reached from itself on a way upwards that takes a step.  The classes of an acyclic table
have ranks that fall along every step upwards, and no rank exceeds the number of classes
(`ClassTable.Acyclic.exists_rank`): this bounds every search for supertypes.
-/

namespace JavaRefactor

namespace ClassTable

variable {t : ClassTable} {name sup : String}

/-- A class has a direct supertype of some class. -/
def Extends (t : ClassTable) (name sup : String) : Prop := sup ∈ t.supertypeNames name

/-- A class is, or has among its supertypes, some class. -/
def Inherits (t : ClassTable) : String → String → Prop := Relation.ReflTransGen t.Extends

/-- No class is among its own proper supertypes. -/
def Acyclic (t : ClassTable) : Prop := ∀ name, ¬ Relation.TransGen t.Extends name name

/-! ### Tables -/

/-- A class that is found has the name that was asked for. -/
theorem name_of_find? {d : ClassDecl} (h : t.find? name = some d) : d.name = name := by
  have := List.find?_some h
  simpa using this

/-- A class that is found is in the table. -/
theorem mem_of_find? {d : ClassDecl} (h : t.find? name = some d) : d ∈ t.classes :=
  List.mem_of_find?_eq_some h

/-- Only a class of the table extends another. -/
theorem Extends.exists_decl (h : t.Extends name sup) :
    ∃ d, t.find? name = some d ∧ sup ∈ d.supertypes.filterMap JavaType.className? := by
  unfold Extends supertypeNames at h
  split at h
  · rename_i d found
    exact ⟨d, found, h⟩
  · exact absurd h List.not_mem_nil

/-- A class extends those that its declared supertypes are types of. -/
theorem extends_iff {d : ClassDecl} (found : t.find? name = some d) :
    t.Extends name sup ↔ ∃ s ∈ d.supertypes, s.className? = some sup := by
  unfold Extends supertypeNames
  rw [found]
  exact List.mem_filterMap

/-- The table weighs at least as much as it has classes. -/
theorem size_le_weight (t : ClassTable) : t.size ≤ t.weight := by
  obtain ⟨classes⟩ := t
  induction classes with
  | nil => exact Nat.le_refl _
  | cons d ds ih =>
    simp only [size, weight, List.length_cons, List.foldr_cons] at ih ⊢
    omega

/-- The supertypes of a class are part of the weight of the table. -/
theorem sizeList_supertypes_le_weight {d : ClassDecl} (h : d ∈ t.classes) :
    JavaType.sizeList d.supertypes ≤ t.weight := by
  obtain ⟨classes⟩ := t
  induction classes with
  | nil => exact absurd h List.not_mem_nil
  | cons e es ih =>
    simp only [weight, List.foldr_cons] at ih ⊢
    rcases List.mem_cons.mp h with rfl | h
    · omega
    · have := ih h
      omega

/-! ### Ranks -/

/-- Ranks that fall from each class to its supertypes fall along every proper way upwards. -/
theorem rank_lt_of_transGen {rank : String → Nat}
    (falls : ∀ name sup, t.Extends name sup → rank sup < rank name)
    (way : Relation.TransGen t.Extends name sup) : rank sup < rank name := by
  induction way with
  | single step => exact falls _ _ step
  | tail _ step ih => exact Nat.lt_trans (falls _ _ step) ih

/-- A table whose classes have falling ranks is acyclic. -/
theorem acyclic_of_rank (rank : String → Nat)
    (falls : ∀ d ∈ t.classes, ∀ sup ∈ d.supertypes.filterMap JavaType.className?,
      rank sup < rank d.name) : t.Acyclic := by
  have steps : ∀ name sup, t.Extends name sup → rank sup < rank name := by
    intro name sup step
    obtain ⟨d, found, hsup⟩ := Extends.exists_decl step
    exact name_of_find? found ▸ falls d (mem_of_find? found) sup hsup
  intro name cycle
  exact Nat.lt_irrefl _ (rank_lt_of_transGen steps cycle)

open Classical in
/-- In an acyclic table, the number of classes above a class falls along every step upwards. -/
theorem Acyclic.exists_rank (acyclic : t.Acyclic) :
    ∃ rank : String → Nat, (∀ name, rank name ≤ t.size) ∧
      ∀ name sup, t.Extends name sup → rank sup < rank name := by
  let names := (t.classes.map ClassDecl.name).toFinset
  refine ⟨fun name => (names.filter fun c => t.Inherits name c).card, fun name => ?_,
    fun name sup step => ?_⟩
  · calc (names.filter fun c => t.Inherits name c).card
        ≤ names.card := Finset.card_filter_le _ _
      _ ≤ (t.classes.map ClassDecl.name).length := List.toFinset_card_le _
      _ = t.size := List.length_map _
  · apply Finset.card_lt_card
    have above :
        names.filter (fun c => t.Inherits sup c) ⊆ names.filter fun c => t.Inherits name c :=
      Finset.monotone_filter_right _ fun c _ way => Relation.ReflTransGen.head step way
    refine (Finset.ssubset_iff_of_subset above).mpr ⟨name, ?_, ?_⟩
    · obtain ⟨d, found, -⟩ := step.exists_decl
      refine Finset.mem_filter.mpr ⟨?_, Relation.ReflTransGen.refl⟩
      exact List.mem_toFinset.mpr (List.mem_map.mpr ⟨d, mem_of_find? found, name_of_find? found⟩)
    · intro back
      exact acyclic name (Relation.TransGen.head' step (Finset.mem_filter.mp back).2)

end ClassTable

end JavaRefactor
