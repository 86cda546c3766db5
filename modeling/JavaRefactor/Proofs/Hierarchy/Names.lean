import JavaRefactor.Proofs.Hierarchy.Ancestry

/-!
# The names of all supertypes

The walk upwards from a class meets the classes that it inherits from, and, as it takes enough
steps to expand each class once, meets all of them: `ClassTable.mem_erasedSupertypes_iff`.
-/

namespace JavaRefactor

/-- There are no more types than nodes in them. -/
theorem JavaType.length_le_sizeList (ts : List JavaType) : ts.length ≤ sizeList ts := by
  induction ts with
  | nil => exact Nat.le_refl _
  | cons s ss ih =>
    have positive := s.size_pos
    rw [List.length_cons, sizeList]
    omega

namespace ClassTable

variable {t : ClassTable}

/-- The walk only meets classes above the names of its queue. -/
theorem inherits_of_mem_namesAbove {n : Nat} {queue seen : List String} {x : String}
    (h : x ∈ t.namesAbove n queue seen) : x ∈ seen ∨ ∃ q ∈ queue, t.Inherits q x := by
  induction n generalizing queue seen with
  | zero => cases queue <;> exact .inl h
  | succ n ih =>
    cases queue with
    | nil => exact .inl h
    | cons name queue =>
      unfold namesAbove at h
      split at h
      · rcases ih h with old | ⟨q, hq, way⟩
        · exact .inl old
        · exact .inr ⟨q, List.mem_cons_of_mem _ hq, way⟩
      · rcases ih h with old | ⟨q, hq, way⟩
        · rcases List.mem_append.mp old with old | here
          · exact .inl old
          · obtain rfl := List.mem_singleton.mp here
            exact .inr ⟨x, List.mem_cons_self, .refl⟩
        · rcases List.mem_append.mp hq with later | step
          · exact .inr ⟨q, List.mem_cons_of_mem _ later, way⟩
          · exact .inr ⟨name, List.mem_cons_self, .head step way⟩

/-! ### The length of the walk

A step of the walk takes one name off the queue.  Names are put on the queue only when a class
is met for the first time, one for each of its supertypes. -/

/-- The number of declared supertypes of the classes that were not met yet. -/
def unmet (seen : List String) : List ClassDecl → Nat
  | [] => 0
  | d :: ds => (if d.name ∈ seen then 0 else d.supertypes.length) + unmet seen ds

/-- One more class that was seen leaves no more to meet. -/
theorem unmet_append_le (seen : List String) (name : String) (classes : List ClassDecl) :
    unmet (seen ++ [name]) classes ≤ unmet seen classes := by
  induction classes with
  | nil => exact Nat.le_refl _
  | cons d ds ih =>
    rw [unmet, unmet]
    refine Nat.add_le_add ?_ ih
    by_cases old : d.name ∈ seen
    · rw [if_pos (List.mem_append_left _ old)]
      exact Nat.zero_le _
    · rw [if_neg old]
      split
      · exact Nat.zero_le _
      · exact Nat.le_refl _

/-- Meeting a class takes its supertypes off what was not met. -/
theorem unmet_append_add_le {seen : List String} {d : ClassDecl} {classes : List ClassDecl}
    (hd : d ∈ classes) (new : d.name ∉ seen) :
    unmet (seen ++ [d.name]) classes + d.supertypes.length ≤ unmet seen classes := by
  induction classes with
  | nil => exact absurd hd List.not_mem_nil
  | cons e es ih =>
    rcases List.mem_cons.mp hd with rfl | hd
    · have rest := unmet_append_le seen d.name es
      have met := List.mem_append_right seen (List.mem_singleton_self d.name)
      rw [unmet, unmet, if_neg new, if_pos met]
      omega
    · have rest := ih hd
      have here := unmet_append_le seen d.name [e]
      simp only [unmet] at here ⊢
      omega

/-- The supertypes of a class that is new are paid for by what is left to meet. -/
theorem length_supertypeNames_add_le {seen : List String} {name : String} (new : name ∉ seen) :
    (t.supertypeNames name).length + unmet (seen ++ [name]) t.classes ≤ unmet seen t.classes := by
  unfold supertypeNames
  split
  · rename_i d found
    have few := List.length_filterMap_le JavaType.className? d.supertypes
    have rest := unmet_append_add_le (mem_of_find? found) (name_of_find? found ▸ new)
    rw [name_of_find? found] at rest
    omega
  · have rest := unmet_append_le seen name t.classes
    simpa using rest

/-- A walk of enough steps meets all names of its queue and, with each class, the classes that
it extends; the root class is passed over. -/
theorem closed_namesAbove {n : Nat} {queue seen : List String}
    (enough : queue.length + unmet seen t.classes ≤ n) :
    (∀ x ∈ seen, x ∈ t.namesAbove n queue seen) ∧
      (∀ q ∈ queue, q ≠ JavaType.objectName → q ∈ t.namesAbove n queue seen) ∧
      ∀ x ∈ t.namesAbove n queue seen, x ∉ seen → ∀ sup, t.Extends x sup →
        sup ≠ JavaType.objectName → sup ∈ t.namesAbove n queue seen := by
  -- On the steps that are left.  A step takes a name from the queue.  The names that it adds are
  -- those of a class that it meets for the first time, and they do not count as unmet any more.
  induction n generalizing queue seen with
  | zero =>
    obtain rfl : queue = [] := List.length_eq_zero_iff.mp (by omega)
    exact ⟨fun _ hx => hx, fun _ hq => absurd hq List.not_mem_nil, fun x hx old => absurd hx old⟩
  | succ n ih =>
    cases queue with
    | nil =>
      exact ⟨fun _ hx => hx, fun _ hq => absurd hq List.not_mem_nil, fun x hx old => absurd hx old⟩
    | cons name queue =>
      unfold namesAbove
      rw [List.length_cons] at enough
      split
      · rename_i passed
        have fewer : queue.length + unmet seen t.classes ≤ n := by omega
        obtain ⟨keeps, meets, closed⟩ := ih fewer
        refine ⟨keeps, fun q hq ne => ?_, closed⟩
        rcases List.mem_cons.mp hq with rfl | hq
        · exact keeps q (passed.resolve_left ne)
        · exact meets q hq ne
      · rename_i fresh
        rw [not_or] at fresh
        have more := length_supertypeNames_add_le (t := t) fresh.2
        have fewer : (queue ++ t.supertypeNames name).length + unmet (seen ++ [name]) t.classes ≤
            n := by
          rw [List.length_append]
          omega
        obtain ⟨keeps, meets, closed⟩ := ih fewer
        refine ⟨fun x hx => keeps x (List.mem_append_left _ hx), fun q hq ne => ?_,
          fun x hx old sup step ne => ?_⟩
        · rcases List.mem_cons.mp hq with rfl | hq
          · exact keeps q (List.mem_append_right _ (List.mem_singleton_self q))
          · exact meets q (List.mem_append_left _ hq) ne
        · by_cases here : x = name
          · subst here
            exact meets sup (List.mem_append_right _ step) ne
          · refine closed x hx (fun old' => ?_) sup step ne
            rcases List.mem_append.mp old' with old' | new
            · exact old old'
            · exact here (List.mem_singleton.mp new)

/-- The supertypes that no class was met for are no more than the table weighs. -/
theorem unmet_nil_le_weight (t : ClassTable) : unmet [] t.classes ≤ t.weight := by
  obtain ⟨classes⟩ := t
  induction classes with
  | nil => exact Nat.le_refl _
  | cons d ds ih =>
    have here := JavaType.length_le_sizeList d.supertypes
    simp only [unmet, weight, List.foldr_cons, List.not_mem_nil, if_false] at ih ⊢
    omega

/-! ### The names above a type -/

/-- A name above a class type is the root class or a class that its class inherits from. -/
theorem inherits_of_mem_erasedSupertypes {name x : String} {args : List JavaType}
    (h : x ∈ t.erasedSupertypes (.declared name args)) :
    x = JavaType.objectName ∨ t.Inherits name x := by
  rcases List.mem_append.mp h with met | root
  · rcases inherits_of_mem_namesAbove met with old | ⟨q, hq, way⟩
    · exact absurd old List.not_mem_nil
    · obtain rfl : q = name := by simpa [JavaType.className?] using hq
      exact .inr way
  · exact .inl (List.mem_singleton.mp root)

/-- If the root class has no supertypes, the names above a class type are exactly the classes
that its class inherits from, and the root class. -/
theorem mem_erasedSupertypes_iff {name x : String} {args : List JavaType}
    (root : t.supertypeNames JavaType.objectName = []) :
    x ∈ t.erasedSupertypes (.declared name args) ↔
      x = JavaType.objectName ∨ t.Inherits name x := by
  refine ⟨inherits_of_mem_erasedSupertypes, fun h => ?_⟩
  unfold erasedSupertypes
  rw [List.mem_append, List.mem_singleton, or_comm]
  rcases h with top | way
  · exact .inl top
  · have enough : [name].length + unmet [] t.classes ≤ t.weight + 1 := by
      have few := t.unmet_nil_le_weight
      rw [List.length_singleton]
      omega
    obtain ⟨-, meets, closed⟩ := closed_namesAbove enough
    induction way with
    | refl =>
      by_cases top : name = JavaType.objectName
      · exact .inl top
      · exact .inr (meets name (List.mem_singleton_self _) top)
    | @tail y x _ step ih =>
      by_cases top : x = JavaType.objectName
      · exact .inl top
      · rcases ih with rfl | met
        · exact absurd step (by simp [Extends, root])
        · exact .inr (closed y met List.not_mem_nil x step top)

end ClassTable

end JavaRefactor
