import JavaRefactor.Proofs.Hierarchy.Names
import JavaRefactor.Proofs.Hierarchy.Rules
import Mathlib.Data.Finset.Max

/-!
# The class of a bound

The class that is taken for the bound of some class types is above all of them
(`ClassTable.isAbove_commonClass`).  If the root class has no supertypes, no other class that
is above all of them is a subtype of it (`ClassTable.commonClass_minimal`): of the classes that
are candidates, one of the highest rank has no other candidate below it, so minimal
candidates exist.
-/

namespace JavaRefactor

namespace ClassTable

variable {t : ClassTable} {types : List JavaType}

/-- A class is above a class type: it is the root class, or the class of the type inherits from
it. -/
def IsAbove (t : ClassTable) (c : String) (type : JavaType) : Prop :=
  c = JavaType.objectName ∨ ∃ name args, type = .declared name args ∧ t.Inherits name c

/-! ### Candidates -/

/-- What is left after filtering is above all types. -/
theorem mem_foldl_filter {x : String} {names : List String} :
    x ∈ types.foldl (fun names type =>
        names.filter fun name => (t.erasedSupertypes type).contains name) names ↔
      x ∈ names ∧ ∀ s ∈ types, x ∈ t.erasedSupertypes s := by
  induction types generalizing names with
  | nil => simp
  | cons s ss ih =>
    rw [List.foldl_cons, ih, List.mem_filter, List.contains_iff_mem, List.forall_mem_cons,
      and_assoc]

/-- The common supertypes are those of all types. -/
theorem mem_commonSupertypes {x : String} (nonempty : types ≠ []) :
    x ∈ t.commonSupertypes types ↔ ∀ s ∈ types, x ∈ t.erasedSupertypes s := by
  cases types with
  | nil => exact absurd rfl nonempty
  | cons s ss =>
    rw [List.forall_mem_cons]
    exact mem_foldl_filter

/-- The erased supertypes of a class type are above it. -/
theorem isAbove_of_mem {x : String} {s : JavaType} (class_type : s.isDeclared = true)
    (h : x ∈ t.erasedSupertypes s) : t.IsAbove x s := by
  cases s with
  | declared name args =>
    exact (inherits_of_mem_erasedSupertypes h).imp_right fun way => ⟨name, args, rfl, way⟩
  | _ => exact absurd class_type Bool.false_ne_true

/-- What is above a class type is among its erased supertypes, if the root class has none. -/
theorem IsAbove.mem_erasedSupertypes (root : t.supertypeNames JavaType.objectName = []) {x : String}
    {s : JavaType} (above : t.IsAbove x s) : x ∈ t.erasedSupertypes s := by
  rcases above with rfl | ⟨name, args, rfl, way⟩
  · exact List.mem_append_right _ (List.mem_singleton_self _)
  · exact (mem_erasedSupertypes_iff root).mpr (.inr way)

/-! ### Minimal candidates -/

/-- Between class types without arguments, subtyping follows the classes. -/
theorem inherits_of_isSubtype {c d : String} (h : t.isSubtype (.ofClass d) (.ofClass c) = true)
    (classes : t.ClassSupertypes) (proper : c ≠ JavaType.objectName) : t.Inherits d c := by
  obtain ⟨n, h⟩ := exists_subtypeWithin h
  rcases view_of_subtypeWithin h with ⟨rfl, -⟩ | root | ⟨m, view, -, found, fits⟩
  · exact .refl
  · exact absurd root proper
  · cases view with
    | none => exact absurd fits (by simp [viewFits])
    | some v =>
      obtain ⟨_, -, chain⟩ := exists_chain_of_asSuperWithin classes proper found
      obtain ⟨_, _, same, way⟩ := chain.inherits classes
      obtain ⟨rfl, -⟩ := JavaType.declared.inj same
      exact way

/-- Nothing is above a class without supertypes. -/
theorem eq_of_inherits {c d : String} (top : t.supertypeNames c = []) (way : t.Inherits c d) :
    d = c := by
  rcases Relation.ReflTransGen.cases_head way with rfl | ⟨sup, step, -⟩
  · rfl
  · exact absurd step (by simp [Extends, top])

/-- A name is minimal if no other one is a subtype of it. -/
theorem mem_minimalNames {c : String} {names : List String} :
    c ∈ t.minimalNames names ↔
      c ∈ names ∧ ∀ d ∈ names, d ≠ c → t.isSubtype (.ofClass d) (.ofClass c) = false := by
  simp [minimalNames, List.mem_filter]

/-- Some candidate is minimal if the root class is one of them. -/
theorem minimalNames_ne_nil (acyclic : t.Acyclic) (classes : t.ClassSupertypes)
    (root : t.supertypeNames JavaType.objectName = []) {names : List String}
    (candidate : JavaType.objectName ∈ names) : t.minimalNames names ≠ [] := by
  obtain ⟨rank, -, falls⟩ := acyclic.exists_rank
  suffices ∃ c, c ∈ t.minimalNames names by
    obtain ⟨c, hc⟩ := this
    exact List.ne_nil_of_mem hc
  by_cases proper : ∃ c ∈ names, c ≠ JavaType.objectName
  · -- a candidate of the highest rank among the proper classes
    obtain ⟨c₀, hc₀⟩ := proper
    obtain ⟨c, hc, highest⟩ :=
      (names.filter fun c => c ≠ JavaType.objectName).toFinset.exists_max_image rank
        ⟨c₀, by simpa using hc₀⟩
    simp only [List.mem_toFinset, List.mem_filter, decide_eq_true_eq] at hc highest
    refine ⟨c, mem_minimalNames.mpr ⟨hc.1, fun d hd other => ?_⟩⟩
    by_contra below
    have way := inherits_of_isSubtype (Bool.eq_true_of_not_eq_false below) classes hc.2
    have proper : d ≠ JavaType.objectName := by
      rintro rfl
      exact hc.2 (eq_of_inherits root way)
    have lower := highest d ⟨hd, proper⟩
    rcases Relation.reflTransGen_iff_eq_or_transGen.mp way with rfl | way
    · exact other rfl
    · exact absurd (rank_lt_of_transGen falls way) (Nat.not_lt_of_le lower)
  · refine ⟨JavaType.objectName, mem_minimalNames.mpr ⟨candidate, fun d hd other => ?_⟩⟩
    exact absurd ⟨d, hd, other⟩ proper

/-! ### The choice -/

/-- The class of the bound is a minimal candidate, or the root class if there is none. -/
theorem commonClass_mem (t : ClassTable) (types : List JavaType) :
    t.commonClass types ∈ t.minimalNames (t.commonSupertypes types) ∨
      t.minimalNames (t.commonSupertypes types) = [] ∧
        t.commonClass types = JavaType.objectName := by
  unfold commonClass
  simp only
  split
  · rename_i found
    exact .inl (List.mem_of_find?_eq_some found)
  · cases h : t.minimalNames (t.commonSupertypes types) with
    | nil => exact .inr ⟨rfl, rfl⟩
    | cons c cs => exact .inl List.mem_cons_self

/-- The class of the bound of class types is above all of them. -/
theorem isAbove_commonClass (class_types : ∀ s ∈ types, s.isDeclared = true) :
    ∀ s ∈ types, t.IsAbove (t.commonClass types) s := by
  intro s hs
  rcases t.commonClass_mem types with minimal | ⟨-, top⟩
  · have candidate := (mem_minimalNames.mp minimal).1
    exact isAbove_of_mem (class_types s hs)
      ((mem_commonSupertypes (List.ne_nil_of_mem hs)).mp candidate s hs)
  · exact .inl top

/-- If the root class has no supertypes, no other class above all types is a subtype of the
class of the bound. -/
theorem commonClass_minimal (acyclic : t.Acyclic) (classes : t.ClassSupertypes)
    (root : t.supertypeNames JavaType.objectName = []) (nonempty : types ≠ []) {d : String}
    (above : ∀ s ∈ types, t.IsAbove d s) (other : d ≠ t.commonClass types) :
    t.isSubtype (.ofClass d) (.ofClass (t.commonClass types)) = false := by
  have candidate {x : String} (h : ∀ s ∈ types, t.IsAbove x s) : x ∈ t.commonSupertypes types :=
    (mem_commonSupertypes nonempty).mpr fun s hs => (h s hs).mem_erasedSupertypes root
  rcases t.commonClass_mem types with minimal | ⟨empty, -⟩
  · exact (mem_minimalNames.mp minimal).2 d (candidate above) other
  · exact absurd empty
      (minimalNames_ne_nil acyclic classes root (candidate fun _ _ => .inl rfl))

end ClassTable

end JavaRefactor
