import JavaRefactor.Hierarchy.ClassTable

/-!
# Views of a type as a supertype

`asSuper?` views a type as an instance of a class above it, with the type arguments that the
declarations on the way give it.  The search goes upwards depth first and takes the first
way that leads to the class.  A declared supertype may be a type parameter, so a way can pass
through the arguments of a type and become far longer than the table is large, or never end.
The search therefore runs on a budget and tells an answer from an exhausted budget:
`asSuperWithin` is `none` when the budget was too small, and a larger budget keeps every
answer (`asSuperWithin_mono`).

`erasedSupertypes` lists the names of all classes above a type, nearest first.
-/

namespace JavaRefactor

/-- The first view that a search finds from some types, which are tried in order.  The search
gives up where it gives up on one of them. -/
def firstView (view : JavaType → Option (Option JavaType)) :
    List JavaType → Option (Option JavaType)
  | [] => some none
  | s :: rest =>
    match view s with
    | some none => firstView view rest
    | answer => answer

namespace ClassTable

/-! ### Views -/

/-- The classes that every array is an instance of. -/
def arraySupertypes : List String :=
  [JavaType.objectName, "java.lang.Cloneable", "java.io.Serializable"]

/-- A type as an instance of a class, if it is one, found on ways of at most some number of
steps. -/
def asSuperWithin (t : ClassTable) : Nat → JavaType → String → Option (Option JavaType)
  | 0, _, _ => none
  | n + 1, .declared name args, target =>
    if name = target then
      some (some (.declared name args))
    else if target = JavaType.objectName then
      some (some .object)
    else
      match t.find? name with
      | none => some none
      | some d => firstView (fun s => asSuperWithin t n s target) (d.directSupertypes args)
  | _ + 1, .array _, target =>
    some (if target ∈ arraySupertypes then some (.ofClass target) else none)
  | n + 1, .var _ upper _, target => asSuperWithin t n upper target
  | _ + 1, _, _ => some none

/-- The number of steps upwards that a way may take.  Between two visits to the arguments of
a type, a way passes through the nodes of declared supertypes, and each of these can again
pass through all others, so the number is exponential in the weight of the table. -/
def viewBudget (t : ClassTable) (type : JavaType) : Nat :=
  Nat.pow (t.weight + 2) (t.weight + 1) * (type.size + 1)

/-- A type as an instance of a class above it; a search that exhausts its budget finds
nothing. -/
def asSuper? (t : ClassTable) (type : JavaType) (target : String) : Option JavaType :=
  (t.asSuperWithin (t.viewBudget type) type target).join

/-! ### Names of all supertypes -/

/-- The names of the direct supertypes of a class. -/
def supertypeNames (t : ClassTable) (name : String) : List String :=
  match t.find? name with
  | some d => d.supertypes.filterMap JavaType.className?
  | none => []

/-- Breadth-first walk upwards from the names of a queue, within a number of steps.  The
names met so far come in the order in which they were met; the root class is left out. -/
def namesAbove (t : ClassTable) : Nat → List String → List String → List String
  | _, [], seen => seen
  | 0, _ :: _, seen => seen
  | n + 1, name :: queue, seen =>
    if name = JavaType.objectName ∨ name ∈ seen then
      namesAbove t n queue seen
    else
      namesAbove t n (queue ++ t.supertypeNames name) (seen ++ [name])

/-- The names of a class type and of all classes above it, nearest first, the root class at
the end.  Each class is expanded once, so the walk takes no more steps than there are
declared supertypes, and one for the start. -/
def erasedSupertypes (t : ClassTable) (type : JavaType) : List String :=
  t.namesAbove (t.weight + 1) type.className?.toList [] ++ [JavaType.objectName]

end ClassTable

/-! ### Budgets -/

/-- If more supertypes have known views, the first view is known as well. -/
theorem firstView_mono {f g : JavaType → Option (Option JavaType)}
    (h : ∀ s r, f s = some r → g s = some r) {ss : List JavaType} {r : Option JavaType}
    (hf : firstView f ss = some r) : firstView g ss = some r := by
  induction ss with
  | nil => exact hf
  | cons s ss ih =>
    unfold firstView at hf ⊢
    cases hs : f s with
    | none => simp [hs] at hf
    | some v =>
      rw [hs] at hf
      rw [h s v hs]
      cases v with
      | none => exact ih hf
      | some _ => exact hf

/-- A larger budget keeps every answer. -/
theorem ClassTable.asSuperWithin_mono (t : ClassTable) {n m : Nat} (hnm : n ≤ m)
    {type : JavaType} {target : String} {r : Option JavaType}
    (h : t.asSuperWithin n type target = some r) : t.asSuperWithin m type target = some r := by
  induction n generalizing m type r with
  | zero => simp [asSuperWithin] at h
  | succ n ih =>
    obtain ⟨m, rfl⟩ : ∃ k, m = k + 1 := ⟨m - 1, by omega⟩
    have up : ∀ s r, t.asSuperWithin n s target = some r → t.asSuperWithin m s target = some r :=
      fun s r hs => ih (by omega) hs
    cases type with
    | declared name args =>
      unfold asSuperWithin at h ⊢
      by_cases hname : name = target
      · simpa [hname] using h
      · by_cases hobject : target = JavaType.objectName
        · simpa [hname, hobject] using h
        · simp only [hname, hobject, if_false] at h ⊢
          cases hd : t.find? name with
          | none => simpa [hd] using h
          | some d =>
            rw [hd] at h
            exact firstView_mono up h
    | var _ upper _ =>
      unfold asSuperWithin at h ⊢
      exact up _ _ h
    | _ =>
      unfold asSuperWithin at h ⊢
      exact h

end JavaRefactor
