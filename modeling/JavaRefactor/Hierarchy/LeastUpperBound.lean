import JavaRefactor.Hierarchy.Subtyping

/-!
# Least upper bounds

The least upper bound of some types is a type that all of them convert to.  Primitive types
have the widest among them, or else the bound of their wrappers.  Of the classes above all
members the minimal ones are candidates, and a class is preferred to an interface.  Where
the members see the chosen class with different arguments, the bound has an unbounded
wildcard.
-/

namespace JavaRefactor

/-! ### Members of a bound

The reduction to members makes types smaller where it goes into arrays, which bounds the
recursion of `lubReferences`. -/

namespace JavaType

/-- The types that a bound of references is built from: `null` adds nothing, and primitive
types count as their wrappers. -/
def boundMembers (types : List JavaType) : List JavaType :=
  (types.filter fun t => !t.isNull).map fun t => t.boxed?.getD t

/-- Whether a type is an array. -/
def isArray (t : JavaType) : Bool := t.element?.isSome

/-- Whether a type is a class type. -/
def isDeclared (t : JavaType) : Bool := t.className?.isSome

/-- Whether two types are primitive and the first converts to the second by widening. -/
def widensTo : JavaType → JavaType → Bool
  | .primitive p, .primitive q => p.widensTo q
  | _, _ => false

/-- The members that a bound is made of are not larger than the types. -/
theorem sizeList_boundMembers_le (types : List JavaType) :
    sizeList (boundMembers types) ≤ sizeList types := by
  induction types with
  | nil => simp [boundMembers, sizeList]
  | cons t ts ih =>
    have box : (t.boxed?.getD t).size ≤ t.size := by
      cases t with
      | primitive k => cases k <;> simp [boxed?, Primitive.wrapper?, size, sizeList]
      | _ => simp [boxed?]
    by_cases h : t.isNull = true
    · simp only [boundMembers, h, Bool.not_true, List.filter_cons] at ih ⊢
      simp only [sizeList] at ih ⊢
      simp only [Bool.false_eq_true, if_false]
      omega
    · have h : t.isNull = false := by simpa using h
      simp only [boundMembers, h, Bool.not_false, List.filter_cons, if_true, List.map_cons] at ih ⊢
      simp only [sizeList] at ih ⊢
      omega

/-- The upper bound of a type is not larger than the type. -/
theorem size_upperBound_le (t : JavaType) : t.upperBound.size ≤ t.size := by
  match t with
  | .var _ upper _ =>
    have := size_upperBound_le upper
    simp only [upperBound, size]
    omega
  | .primitive _ | .declared _ _ | .array _ | .wildcard _ _ | .method _ _ | .generic _ _
  | .unknown => simp [upperBound]

/-- The upper bounds of some types are not larger than the types. -/
theorem sizeList_map_upperBound_le (types : List JavaType) :
    sizeList (types.map upperBound) ≤ sizeList types := by
  induction types with
  | nil => simp [sizeList]
  | cons t ts ih =>
    have := size_upperBound_le t
    simp only [List.map_cons, sizeList]
    omega

/-- The elements of the array types among some types are not larger than the types. -/
theorem sizeList_elements_le (types : List JavaType) :
    sizeList (types.filterMap element?) ≤ sizeList types := by
  induction types with
  | nil => simp [sizeList]
  | cons t ts ih =>
    cases t <;> simp [List.filterMap_cons, element?, sizeList, size] at ih ⊢ <;> omega

/-- They are smaller, unless there are no types. -/
theorem sizeList_elements_lt {types : List JavaType} (ne : types ≠ []) :
    sizeList (types.filterMap element?) < sizeList types := by
  cases types with
  | nil => exact absurd rfl ne
  | cons t ts =>
    have := sizeList_elements_le ts
    have := size_pos t
    cases t <;> simp [List.filterMap_cons, element?, sizeList, size] at this ⊢ <;> omega

end JavaType

namespace ClassTable

/-! ### The common class -/

/-- The names of the classes above every type of a list, nearest to the first type first. -/
def commonSupertypes (t : ClassTable) : List JavaType → List String
  | [] => []
  | first :: rest =>
    rest.foldl
      (fun names type =>
        let above := t.erasedSupertypes type
        names.filter fun name => above.contains name)
      (t.erasedSupertypes first)

/-- The names that have no other of the names below them. -/
def minimalNames (t : ClassTable) (names : List String) : List String :=
  names.filter fun c =>
    !names.any fun d => d != c && t.isSubtype (.ofClass d) (.ofClass c)

/-- The class that is taken for the bound: the first minimal one that is not an interface,
else the first minimal one. -/
def commonClass (t : ClassTable) (types : List JavaType) : String :=
  let minimal := t.minimalNames (t.commonSupertypes types)
  match minimal.find? fun c => !t.isInterface c with
  | some c => c
  | none => minimal.headD JavaType.objectName

/-- The arguments on which all views of a class agree, with an unbounded wildcard for each
on which they do not. -/
def mergeArguments (views : List JavaType) (firstArgs : List JavaType) : List JavaType :=
  firstArgs.mapIdx fun i arg =>
    let agree := views.all fun
      | .declared _ args => args[i]? == some arg
      | _ => false
    if agree then arg else .wildcard .unbounded none

/-- The bound of class types. -/
def lubClasses (t : ClassTable) (types : List JavaType) : JavaType :=
  let chosen := t.commonClass types
  let views := types.filterMap fun type => t.asSuper? type chosen
  match views.head? with
  | some (.declared _ args) => .declared chosen (mergeArguments views args)
  | _ => .ofClass chosen

/-! ### The bound -/

/-- The bound of types that are not all primitive. -/
def lubReferences (t : ClassTable) (types : List JavaType) : JavaType :=
  match _h : JavaType.boundMembers types with
  | [] => .primitive .null
  | first :: rest =>
    if (first :: rest).all fun m => m.isSame first then
      first
    else
      let bounds := (first :: rest).map JavaType.upperBound
      if bounds.all JavaType.isArray then
        let elements := bounds.filterMap JavaType.element?
        if elements.all JavaType.isReference then .array (lubReferences t elements) else .object
      else if bounds.all JavaType.isDeclared then
        t.lubClasses bounds
      else
        .object
termination_by JavaType.sizeList types
decreasing_by
  have h₁ := JavaType.sizeList_boundMembers_le types
  have h₂ := JavaType.sizeList_map_upperBound_le (first :: rest)
  have h₃ : JavaType.sizeList (((first :: rest).map JavaType.upperBound).filterMap
      JavaType.element?) < _ := JavaType.sizeList_elements_lt (by simp)
  rw [_h] at h₁
  simp only [List.map_cons] at h₂ h₃ ⊢
  omega

/-- The least upper bound of some types; there is none of an empty list. -/
def lub (t : ClassTable) : List JavaType → Option JavaType
  | [] => none
  | first :: rest =>
    let types := first :: rest
    if types.all (· == first) then
      some first
    else if types.all JavaType.isPrimitive then
      match types.find? fun c => types.all fun p => p.widensTo c with
      | some widest => some widest
      | none => some (t.lubReferences (types.filterMap JavaType.boxed?))
    else
      some (t.lubReferences types)

end ClassTable

end JavaRefactor
