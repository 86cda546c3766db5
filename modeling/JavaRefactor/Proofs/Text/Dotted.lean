import JavaRefactor.Text.Dotted

/-!
# Components of dotted names

A dotted name is its qualifier, a dot and its simple name (`Dotted.eq_qualifier_append`), and its
components joined with dots (`Dotted.join_components`).  The top-level class around a class is
the class itself, or the name up to a dot (`Dotted.topLevelClass_eq_or`).
-/

namespace JavaRefactor

namespace Dotted

variable {name before after : String}

/-! ### The last dot -/

/-- Characters cannot be split at a last dot if there is none. -/
theorem splitLast?_eq_none {cs : List Char} : splitLast? cs = none ↔ '.' ∉ cs := by
  induction cs with
  | nil => simp [splitLast?]
  | cons c cs ih =>
    unfold splitLast?
    cases h : splitLast? cs with
    | some parts =>
      have dot : '.' ∈ cs := Decidable.byContradiction fun none_left => by
        rw [ih.mpr none_left] at h
        exact absurd h (by simp)
      simp [dot]
    | none =>
      have rest := ih.mp h
      by_cases hc : c = '.'
      · simp [hc]
      · simp [hc, rest, Ne.symm hc]

/-- Nothing after the last dot is a dot. -/
theorem splitLast?_append {before after : List Char} (plain : '.' ∉ after) :
    splitLast? (before ++ '.' :: after) = some (before, after) := by
  induction before with
  | nil =>
    rw [List.nil_append, splitLast?, splitLast?_eq_none.mpr plain]
    rfl
  | cons c cs ih => rw [List.cons_append, splitLast?, ih]

/-- There is no dot behind the last one. -/
theorem not_mem_of_splitLast? {cs before after : List Char}
    (h : splitLast? cs = some (before, after)) : '.' ∉ after := by
  induction cs generalizing before with
  | nil => exact absurd h (by simp [splitLast?])
  | cons c cs ih =>
    unfold splitLast? at h
    split at h
    · rename_i b a rest
      obtain ⟨-, rfl⟩ := Prod.mk.inj (Option.some.inj h)
      exact ih rest
    · rename_i rest
      split at h
      · obtain ⟨-, rfl⟩ := Prod.mk.inj (Option.some.inj h)
        exact splitLast?_eq_none.mp rest
      · exact absurd h (by simp)

/-- A name without a dot is its own simple name, and has no qualifier. -/
theorem split?_eq_none (plain : '.' ∉ name.toList) : split? name = none := by
  rw [split?, splitLast?_eq_none.mpr plain]
  rfl

/-- A name is split at a dot with none behind it. -/
theorem split?_append (plain : '.' ∉ after.toList) :
    split? (before ++ "." ++ after) = some (before, after) := by
  have cut : (before ++ "." ++ after).toList = before.toList ++ '.' :: after.toList := by simp
  rw [split?, cut, splitLast?_append plain]
  simp

/-- A name without a dot is its own simple name. -/
theorem simpleName_of_not_mem (plain : '.' ∉ name.toList) : simpleName name = name := by
  rw [simpleName, split?_eq_none plain]

/-- A name without a dot has no qualifier. -/
theorem qualifier_of_not_mem (plain : '.' ∉ name.toList) : qualifier name = "" := by
  rw [qualifier, split?_eq_none plain]

/-- The simple name is what stands behind the last dot. -/
theorem simpleName_append (plain : '.' ∉ after.toList) :
    simpleName (before ++ "." ++ after) = after := by
  rw [simpleName, split?_append plain]

/-- A name with a dot is its qualifier, a dot and its simple name. -/
theorem eq_qualifier_append (dotted : '.' ∈ name.toList) :
    name = qualifier name ++ "." ++ simpleName name := by
  cases cut : splitLast? name.toList with
  | none => exact absurd dotted (splitLast?_eq_none.mp cut)
  | some parts =>
    obtain ⟨before, after⟩ := parts
    have whole := splitLast?_eq_some cut
    have parts : split? name = some (String.ofList before, String.ofList after) := by
      rw [split?, cut]
      rfl
    rw [qualifier, simpleName, parts]
    apply String.toList_inj.mp
    simp [whole]

/-- A name with a qualifier is the qualifier, a dot and its simple name. -/
theorem eq_append_of_qualifier {package : String} (named : package ≠ "")
    (h : qualifier name = package) : name = package ++ "." ++ simpleName name := by
  by_cases dotted : '.' ∈ name.toList
  · exact h ▸ eq_qualifier_append dotted
  · exact absurd (h.symm.trans (qualifier_of_not_mem dotted)) named

/-- There is no dot in a simple name. -/
theorem not_mem_simpleName (name : String) : '.' ∉ (simpleName name).toList := by
  unfold simpleName split?
  cases cut : splitLast? name.toList with
  | none => exact splitLast?_eq_none.mp cut
  | some parts =>
    simp only [Option.map_some, String.toList_ofList]
    exact not_mem_of_splitLast? cut

/-! ### Components -/

/-- Every name has a component. -/
theorem components_ne_nil (name : String) : components name ≠ [] := by
  simp [components]

/-- A name without a dot is its only component. -/
theorem components_of_not_mem (plain : '.' ∉ name.toList) : components name = [name] := by
  rw [components, List.splitOn_eq_singleton plain]
  simp

/-- The components of two names joined with a dot are those of both. -/
theorem components_append (before after : String) :
    components (before ++ "." ++ after) = components before ++ components after := by
  have cut : (before ++ "." ++ after).toList = before.toList ++ '.' :: after.toList := by simp
  rw [components, cut, List.splitOn_append_cons_self, List.map_append]
  rfl

/-- Only a name without a dot is its only component. -/
theorem not_mem_of_components {part : String} (h : components name = [part]) :
    '.' ∉ name.toList := by
  intro dotted
  rw [eq_qualifier_append dotted, components_append] at h
  have front := List.length_pos_iff.mpr (components_ne_nil (qualifier name))
  have back := List.length_pos_iff.mpr (components_ne_nil (simpleName name))
  have both := congrArg List.length h
  rw [List.length_append, List.length_singleton] at both
  omega

/-- One component alone is joined to itself. -/
theorem join_singleton (part : String) : join [part] = part := by
  simp [join]

/-- A component is joined to others by a dot. -/
theorem join_cons {part : String} {parts : List String} (more : parts ≠ []) :
    join (part :: parts) = part ++ "." ++ join parts :=
  String.intercalate_cons_of_ne_nil more

/-- Joining the components gives the name back. -/
theorem join_components (name : String) : join (components name) = name := by
  apply String.toList_inj.mp
  rw [join, components, String.toList_intercalate, List.map_map]
  have same : String.toList ∘ String.ofList = id := by
    funext cs
    simp
  rw [same, List.map_id]
  exact List.intercalate_splitOn '.'

/-! ### Top-level classes -/

/-- The components up to the first capital begin the components. -/
theorem exists_append_of_throughFirstUpper {parts front : List String}
    (h : throughFirstUpper parts = some front) : front ≠ [] ∧ ∃ back, parts = front ++ back := by
  induction parts generalizing front with
  | nil => exact absurd h (by simp [throughFirstUpper])
  | cons part parts ih =>
    unfold throughFirstUpper at h
    split at h
    · obtain rfl := Option.some.inj h
      exact ⟨by simp, parts, rfl⟩
    · obtain ⟨front', rest, rfl⟩ := Option.map_eq_some_iff.mp h
      obtain ⟨-, back, rfl⟩ := ih rest
      exact ⟨by simp, back, rfl⟩

/-- The top-level class around a class is the class itself, or its name up to a dot. -/
theorem topLevelClass_eq_or (name : String) :
    topLevelClass name = name ∨ ∃ rest, name = topLevelClass name ++ "." ++ rest := by
  unfold topLevelClass
  split
  · rename_i front found
    obtain ⟨nonempty, back, whole⟩ := exists_append_of_throughFirstUpper found
    cases back with
    | nil =>
      rw [List.append_nil] at whole
      exact .inl (whole ▸ join_components name)
    | cons part parts =>
      refine .inr ⟨join (part :: parts), ?_⟩
      rw [join, join, ← String.intercalate_append_of_ne_nil nonempty (by simp), ← whole]
      exact (join_components name).symm
  · exact .inl rfl

end Dotted

end JavaRefactor
