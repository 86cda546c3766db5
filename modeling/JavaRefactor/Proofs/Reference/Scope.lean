import JavaRefactor.Expansion.Reference
import JavaRefactor.Proofs.Text.Dotted

/-!
# What a name means in a unit

A simple name of a class is looked up in levels, the first of which that has it decides: the
single-type imports, the classes of the unit and of its package, and `java.lang`.  A simple name of
a member is looked up among the members of the classes of the unit, then among the static imports.
Two different classes or members at one level are ambiguous.  The head of a dotted name is looked
up as a simple name of a class; if there is none, the name is fully qualified.
-/

namespace JavaRefactor

/-! ### Dotted expressions -/

/-- The components of an expression that is a dotted name. -/
def Expr.dotted? : Expr → Option (List String)
  | .ident _ name _ => some [name]
  | .select _ receiver name _ => (dotted? receiver).map fun parts => parts ++ [name]
  | _ => none

/-- The type of an expression does not change the name that it spells. -/
theorem Expr.dotted?_withType (e : Expr) (type : JavaType) :
    (e.withType type).dotted? = e.dotted? := by
  cases e <;> rfl

/-- Selections from an expression add their names to the one that it spells. -/
theorem Expr.dotted?_foldl_select (info : NodeInfo) {e : Expr} {front : List String}
    (h : e.dotted? = some front) (parts : List String) :
    (parts.foldl (fun receiver part => select info receiver part none) e).dotted? =
      some (front ++ parts) := by
  induction parts generalizing e front with
  | nil => rw [List.foldl_nil, h, List.append_nil]
  | cons part parts ih =>
    have longer : (select info e part none).dotted? = some (front ++ [part]) := by
      rw [dotted?, h]
      rfl
    rw [List.foldl_cons, ih longer, List.append_assoc, List.singleton_append]

/-- A qualified name is written as its components. -/
theorem Expr.dotted?_qualifiedName (name : String) (type : JavaType) :
    (Expr.qualifiedName name type).dotted? = some (Dotted.components name) := by
  unfold qualifiedName
  simp only
  rw [dotted?_withType]
  cases parts : Dotted.components name with
  | nil => exact absurd parts (Dotted.components_ne_nil name)
  | cons first rest =>
    exact dotted?_foldl_select _ (show (ident _ first none).dotted? = some [first] from rfl) rest

/-! ### Scopes -/

/-- Whether a class declares a field or a method of a name. -/
def TypeDecl.declaresMember (t : TypeDecl) (name : String) : Bool :=
  (t.fields.any fun f => f.name == name) || t.methods.any fun m => m.name == name

/-- The qualified name of a class of the package of the unit. -/
def CompilationUnit.inPackage (u : CompilationUnit) (simple : String) : String :=
  match u.package with
  | some package => package ++ "." ++ simple
  | none => simple

/-- What names are looked up in: a unit with imports added to it, among the classes that exist. -/
structure Scope where
  unit : CompilationUnit
  added : PendingImports
  known : String → Bool

namespace Scope

/-- The first level that has something. -/
def firstLevel : List (List String) → List String
  | [] => []
  | [] :: levels => firstLevel levels
  | level :: _ => level

/-- The only thing that some names name, if there is one. -/
def agreed? : List String → Option String
  | [] => none
  | path :: paths => if paths.all (· == path) then some path else none

/-- The paths that are imported, of classes or of static members, and end in a simple name. -/
def importsNamed (s : Scope) (isStatic : Bool) (simple : String) : List String :=
  ((s.unit.imports.filter fun i => i.isStatic == isStatic).map Import.path
    ++ (if isStatic then s.added.statics else s.added.classes).names).filter
      fun path => Dotted.simpleName path == simple

/-- The classes that a simple name may mean. -/
def classesNamed (s : Scope) (simple : String) : List String :=
  firstLevel
    [s.importsNamed false simple,
     if s.unit.declaresType simple || s.known (s.unit.inPackage simple) then
       [s.unit.inPackage simple] else [],
     if s.known ("java.lang." ++ simple) then ["java.lang." ++ simple] else []]

/-- The members that a simple name may mean. -/
def membersNamed (s : Scope) (name : String) : List String :=
  firstLevel
    [(s.unit.types.filter fun t => t.declaresMember name).map fun t =>
       s.unit.qualifiedName t ++ "." ++ name,
     s.importsNamed true name]

/-- The class that a dotted name means. -/
def readClass (s : Scope) : List String → Option String
  | [] => none
  | head :: rest =>
    match s.classesNamed head with
    | [] => if rest = [] then none else some (Dotted.join (head :: rest))
    | named => (agreed? named).map fun c => Dotted.join (c :: rest)

/-- The static member that an expression means. -/
def readMember (s : Scope) : Expr → Option String
  | .ident _ name _ => agreed? (s.membersNamed name)
  | .select _ receiver name _ =>
    (receiver.dotted?.bind s.readClass).map fun owner => owner ++ "." ++ name
  | _ => none

variable {s : Scope} {simple path : String}

/-- Paths agree on one if they are all the same. -/
theorem agreed?_of_forall {paths : List String} (here : path ∈ paths)
    (same : ∀ p ∈ paths, p = path) : agreed? paths = some path := by
  cases paths with
  | nil => exact absurd here List.not_mem_nil
  | cons p ps =>
    obtain rfl := same p List.mem_cons_self
    exact if_pos (List.all_eq_true.mpr fun q hq =>
      beq_iff_eq.mpr (same q (List.mem_cons_of_mem _ hq)))

/-- The imports of a simple name are those of the unit and those added that end in it. -/
theorem mem_importsNamed {isStatic : Bool} :
    path ∈ s.importsNamed isStatic simple ↔
      ((∃ i ∈ s.unit.imports, i.isStatic = isStatic ∧ i.path = path) ∨
        path ∈ (if isStatic then s.added.statics else s.added.classes).names) ∧
      Dotted.simpleName path = simple := by
  simp [importsNamed, and_assoc, or_and_right]

/-- No class is imported under a name that neither the unit nor the pending imports have. -/
theorem importsNamed_eq_nil
    (unit : ∀ i ∈ s.unit.imports, i.isStatic = false → i.simpleName ≠ simple)
    (pending : ∀ path ∈ s.added.classes.names, Dotted.simpleName path ≠ simple) :
    s.importsNamed false simple = [] := by
  refine List.eq_nil_iff_forall_not_mem.mpr fun path hpath => ?_
  obtain ⟨⟨i, hi, kind, rfl⟩ | here, named⟩ := mem_importsNamed.mp hpath
  · exact unit i hi kind named
  · exact pending path here named

/-- A name of a class means what all single-type imports of that name are. -/
theorem agreed?_classesNamed_of_import (here : path ∈ s.importsNamed false simple)
    (same : ∀ p ∈ s.importsNamed false simple, p = path) :
    agreed? (s.classesNamed simple) = some path := by
  unfold classesNamed
  cases imports : s.importsNamed false simple with
  | nil => exact absurd (imports ▸ here) List.not_mem_nil
  | cons p ps =>
    rw [imports] at here same
    exact agreed?_of_forall here same

/-- A dotted name whose head means a class means what the rest names in that class. -/
theorem readClass_of_agreed {rest : List String}
    (h : agreed? (s.classesNamed simple) = some path) :
    s.readClass (simple :: rest) = some (Dotted.join (path :: rest)) := by
  rw [readClass]
  cases named : s.classesNamed simple with
  | nil =>
    rw [named] at h
    exact absurd h (by simp [agreed?])
  | cons p ps =>
    rw [named] at h
    simp only [h, Option.map_some]

end Scope

end JavaRefactor
