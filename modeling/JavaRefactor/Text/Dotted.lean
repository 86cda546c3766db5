/-!
# Dotted names

Packages, classes and members are named by components joined with dots.  The last
component is the simple name, everything before the last dot is the qualifier, and the
first component that begins with an ASCII capital ends the name of a top-level class.
-/

namespace JavaRefactor

namespace Dotted

/-- The components of a dotted name; a name without a dot is its only component. -/
def components (name : String) : List String :=
  (name.toList.splitOn '.').map String.ofList

/-- Components joined with dots. -/
def join (parts : List String) : String :=
  ".".intercalate parts

/-- Cut a list of characters at its last dot, which belongs to neither part. -/
def splitLast? : List Char → Option (List Char × List Char)
  | [] => none
  | c :: cs =>
    match splitLast? cs with
    | some (before, after) => some (c :: before, after)
    | none => if c = '.' then some ([], cs) else none

/-- Qualifier and simple name, when the name has a dot. -/
def split? (name : String) : Option (String × String) :=
  (splitLast? name.toList).map fun (before, after) => (String.ofList before, String.ofList after)

/-- The last component of a name. -/
def simpleName (name : String) : String :=
  match split? name with
  | some (_, simple) => simple
  | none => name

/-- Everything before the last dot; empty for a name without one. -/
def qualifier (name : String) : String :=
  match split? name with
  | some (before, _) => before
  | none => ""

/-- Whether a component is written like a class name: its first letter is an ASCII
capital. -/
def startsUpper (component : String) : Bool :=
  match component.toList with
  | c :: _ => c.isUpper
  | [] => false

/-- The components up to and including the first one that is written like a class. -/
def throughFirstUpper : List String → Option (List String)
  | [] => none
  | p :: ps => if startsUpper p then some [p] else (throughFirstUpper ps).map (p :: ·)

/-- The outermost class around a class: the name up to its first capitalized component,
or the whole name when there is none. -/
def topLevelClass (name : String) : String :=
  match throughFirstUpper (components name) with
  | some parts => join parts
  | none => name

/-- Cutting at the last dot and joining again gives the name back. -/
theorem splitLast?_eq_some {cs before after : List Char} :
    splitLast? cs = some (before, after) → cs = before ++ '.' :: after := by
  induction cs generalizing before after with
  | nil => simp [splitLast?]
  | cons c cs ih =>
    intro h
    unfold splitLast? at h
    split at h
    · rename_i b a hb
      simp only [Option.some.injEq, Prod.mk.injEq] at h
      obtain ⟨rfl, rfl⟩ := h
      simp [ih hb]
    · split at h
      · rename_i hc
        simp only [Option.some.injEq, Prod.mk.injEq] at h
        obtain ⟨rfl, rfl⟩ := h
        simp [hc]
      · simp at h

end Dotted

end JavaRefactor
