import JavaRefactor.Pattern.Type

/-!
# Type parameters of templates

The type parameters that a template declares, in order and with different names.  A bound
may mention every parameter, also the one that it bounds, so a parameter is declared first
and bounded afterwards.
-/

namespace JavaRefactor

/-- A type parameter of a template. -/
structure TypeParameter where
  name : String
  lower : Option TypePattern
  upper : TypePattern

/-- The type parameters of a template. -/
structure TypeParameters where
  params : List TypeParameter
  distinct : (params.map (·.name)).Nodup

namespace TypeParameters

/-- No type parameters. -/
def empty : TypeParameters := ⟨[], .nil⟩

/-- The names in order of declaration. -/
def names (ps : TypeParameters) : List String := ps.params.map (·.name)

/-- The number of type parameters. -/
def size (ps : TypeParameters) : Nat := ps.params.length

/-- The parameter of some name. -/
def find? (ps : TypeParameters) (name : String) : Option TypeParameter :=
  ps.params.find? fun p => p.name == name

/-- Declare a parameter below `Object`.  Declaring a name again changes nothing. -/
def declare (ps : TypeParameters) (name : String) : TypeParameters :=
  if h : name ∈ ps.names then ps
  else
    { params := ps.params ++ [⟨name, none, .object⟩]
      distinct := by
        rw [List.map_append, List.nodup_append]
        refine ⟨ps.distinct, by simp, ?_⟩
        intro a ha b hb
        simp only [List.map_cons, List.map_nil, List.mem_singleton] at hb
        subst hb
        rintro rfl
        exact h ha }

/-- The parameter with another upper bound, if it has some name. -/
def boundAbove (name : String) (bound : TypePattern) (p : TypeParameter) : TypeParameter :=
  if p.name = name then { p with upper := bound } else p

/-- The parameter with another lower bound, if it has some name. -/
def boundBelow (name : String) (bound : TypePattern) (p : TypeParameter) : TypeParameter :=
  if p.name = name then { p with lower := some bound } else p

/-- A bound above does not change the name of a parameter. -/
theorem name_boundAbove (name : String) (bound : TypePattern) (p : TypeParameter) :
    (boundAbove name bound p).name = p.name := by
  unfold boundAbove
  split <;> rfl

/-- A bound below does not change the name of a parameter. -/
theorem name_boundBelow (name : String) (bound : TypePattern) (p : TypeParameter) :
    (boundBelow name bound p).name = p.name := by
  unfold boundBelow
  split <;> rfl

/-- Set the upper bound of a declared parameter. -/
def withUpper (ps : TypeParameters) (name : String) (bound : TypePattern) : TypeParameters :=
  { params := ps.params.map (boundAbove name bound)
    distinct := by
      rw [List.map_map, show (fun p : TypeParameter => p.name) ∘ boundAbove name bound
        = fun p => p.name from funext (name_boundAbove name bound)]
      exact ps.distinct }

/-- Set the lower bound of a declared parameter. -/
def withLower (ps : TypeParameters) (name : String) (bound : TypePattern) : TypeParameters :=
  { params := ps.params.map (boundBelow name bound)
    distinct := by
      rw [List.map_map, show (fun p : TypeParameter => p.name) ∘ boundBelow name bound
        = fun p => p.name from funext (name_boundBelow name bound)]
      exact ps.distinct }

end TypeParameters

end JavaRefactor
