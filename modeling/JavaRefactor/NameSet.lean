/-!
# Sets of names

A finite set of names, kept in strictly increasing order, so that it has one representation
and lists its names in a fixed order.
-/

namespace JavaRefactor

/-- A finite set of names. -/
structure NameSet where
  names : List String
  increasing : names.Pairwise (· < ·)
  deriving DecidableEq

namespace NameSet

/-- Put a name into its place in an increasing list, unless it is there already. -/
def insertSorted (name : String) : List String → List String
  | [] => [name]
  | n :: ns =>
    if name = n then n :: ns
    else if name < n then name :: n :: ns
    else n :: insertSorted name ns

/-- Inserting a name in order adds it to those that are there. -/
theorem mem_insertSorted {name x : String} {ns : List String} :
    x ∈ insertSorted name ns ↔ x = name ∨ x ∈ ns := by
  induction ns with
  | nil => simp [insertSorted]
  | cons n ns ih =>
    unfold insertSorted
    split
    · rename_i h
      simp [h]
    · split
      · simp
      · simp only [List.mem_cons, ih]
        constructor
        · rintro (h | h | h) <;> simp [h]
        · rintro (h | h | h) <;> simp [h]

/-- Inserting a name in order keeps the order. -/
theorem insertSorted_increasing {name : String} {ns : List String}
    (h : ns.Pairwise (· < ·)) : (insertSorted name ns).Pairwise (· < ·) := by
  induction ns with
  | nil => simp [insertSorted]
  | cons n ns ih =>
    obtain ⟨hn, hns⟩ := List.pairwise_cons.1 h
    unfold insertSorted
    split
    · exact h
    · rename_i hne
      split
      · rename_i hlt
        refine List.pairwise_cons.2 ⟨fun x hx => ?_, h⟩
        rcases List.mem_cons.1 hx with rfl | hx
        · exact hlt
        · exact String.lt_trans hlt (hn x hx)
      · rename_i hnlt
        refine List.pairwise_cons.2 ⟨fun x hx => ?_, ih hns⟩
        rcases mem_insertSorted.1 hx with rfl | hx
        · exact Std.lt_of_le_of_ne (String.not_lt.1 hnlt) (Ne.symm hne)
        · exact hn x hx

/-- The set without names. -/
def empty : NameSet := ⟨[], .nil⟩

/-- The set with one more name. -/
def insert (s : NameSet) (name : String) : NameSet :=
  ⟨insertSorted name s.names, insertSorted_increasing s.increasing⟩

/-- Whether a name is in the set. -/
def contains (s : NameSet) (name : String) : Bool := s.names.contains name

/-- Whether the set has no names. -/
def isEmpty (s : NameSet) : Bool := s.names.isEmpty

/-- The names of two sets together. -/
def union (s t : NameSet) : NameSet := t.names.foldl insert s

/-- The set of the names of a list. -/
def ofList (names : List String) : NameSet := names.foldl insert empty

/-- Inserting a name adds it to those that are there. -/
theorem mem_insert {s : NameSet} {name x : String} :
    x ∈ (s.insert name).names ↔ x = name ∨ x ∈ s.names :=
  mem_insertSorted

/-- Inserting some names adds them to those that are there. -/
theorem mem_foldl_insert {names : List String} {s : NameSet} {x : String} :
    x ∈ (names.foldl insert s).names ↔ x ∈ names ∨ x ∈ s.names := by
  induction names generalizing s with
  | nil => simp
  | cons n ns ih =>
    rw [List.foldl_cons, ih, mem_insert, List.mem_cons]
    constructor
    · rintro (h | h | h) <;> simp [h]
    · rintro ((h | h) | h) <;> simp [h]

/-- A union holds the names of both sets. -/
theorem mem_union {s t : NameSet} {x : String} :
    x ∈ (s.union t).names ↔ x ∈ t.names ∨ x ∈ s.names :=
  mem_foldl_insert

end NameSet

end JavaRefactor
