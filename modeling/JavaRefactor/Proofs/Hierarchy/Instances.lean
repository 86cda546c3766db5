import JavaRefactor.Proofs.Hierarchy.Rules
import JavaRefactor.Proofs.JavaType.Ground
import Mathlib.Data.List.Forall2

/-!
# Instances of supertypes

In a regular table every declared supertype is a class type whose arguments are parameters of
the class, or rigid.  A view of a class type then has arguments that are arguments of the type,
or rigid types of the table (`ClassTable.Regular.args_of_chain`), and a chain of supertypes is
followed by a chain from every other instance of the class, with the arguments replaced
in the same way (`ClassTable.Regular.forall₂_of_chain`).
-/

namespace JavaRefactor

/-! ### Parameters -/

namespace Substitution

variable {x p : String} {a : JavaType} {params : List String} {args : List JavaType}

/-- A parameter has the argument that stands last for it. -/
theorem lookup_ofParameters_cons :
    (ofParameters (p :: params) (a :: args)).lookup x =
      ((ofParameters params args).lookup x).or (if x == p then some a else none) := by
  unfold ofParameters
  rw [List.zip_cons_cons, List.reverse_cons, List.lookup_append, List.lookup_cons]
  congr 1
  split <;> simp_all

/-- Nothing is found for a name that is no parameter. -/
theorem lookup_ofParameters_eq_none (hx : x ∉ params) :
    (ofParameters params args).lookup x = none :=
  lookup_eq_none fun _ hentry same =>
    hx (same ▸ (List.of_mem_zip (List.mem_reverse.mp hentry)).1)

/-- A parameter is replaced by the argument at its last place, whatever the arguments are. -/
theorem exists_index (hx : x ∈ params) :
    ∃ i : Nat, params[i]? = some x ∧ ∀ args : List JavaType, args.length = params.length →
      (ofParameters params args).lookup x = args[i]? := by
  induction params with
  | nil => exact absurd hx List.not_mem_nil
  | cons p params ih =>
    by_cases later : x ∈ params
    · obtain ⟨i, here, found⟩ := ih later
      refine ⟨i + 1, here, fun args length => ?_⟩
      cases args with
      | nil => exact absurd length (by simp)
      | cons a args =>
        have length := Nat.succ.inj length
        have hi : i < args.length := length ▸ (List.getElem?_eq_some_iff.mp here).1
        rw [lookup_ofParameters_cons, found args length, List.getElem?_cons_succ,
          List.getElem?_eq_getElem hi, Option.some_or]
    · obtain rfl : x = p := (List.mem_cons.mp hx).resolve_right later
      refine ⟨0, rfl, fun args length => ?_⟩
      cases args with
      | nil => exact absurd length (by simp)
      | cons a args =>
        rw [lookup_ofParameters_cons, lookup_ofParameters_eq_none later]
        simp

/-- A parameter is replaced by related types if all arguments are related. -/
theorem exists_related {R : JavaType → JavaType → Prop} {bs : List JavaType}
    (full : args.length = params.length) (related : List.Forall₂ R args bs) (hx : x ∈ params) :
    ∃ a b, (ofParameters params args).lookup x = some a ∧
      (ofParameters params bs).lookup x = some b ∧ R a b := by
  obtain ⟨i, here, lookup⟩ := exists_index hx
  have hi : i < args.length := full ▸ (List.getElem?_eq_some_iff.mp here).1
  have hi' : i < bs.length := related.length_eq ▸ hi
  refine ⟨args[i], bs[i], ?_, ?_, related.get hi hi'⟩
  · rw [lookup args full, List.getElem?_eq_getElem hi]
  · rw [lookup bs (related.length_eq ▸ full), List.getElem?_eq_getElem hi']

/-- The argument of a parameter is what the substitution makes of the variable that the parameter
stands for in the class applied to its parameters.  This is about the lookups, as a parameter that
is given twice stands for its last argument. -/
theorem exists_substitute_freeVariable (full : args.length = params.length) (hx : x ∈ params) :
    ∃ a b, (ofParameters params args).lookup x = some a ∧
      (ofParameters params (params.map JavaType.freeVariable)).lookup x = some b ∧
      a = b.substitute (ofParameters params args) := by
  obtain ⟨i, here, lookup⟩ := exists_index hx
  have hi : i < args.length := full ▸ (List.getElem?_eq_some_iff.mp here).1
  have found := lookup args full
  rw [List.getElem?_eq_getElem hi] at found
  refine ⟨args[i], .freeVariable x, found, ?_, ?_⟩
  · rw [lookup _ (List.length_map _), List.getElem?_map, here]
    rfl
  · change args[i] = JavaType.substitute _ (.var x .object none)
    rw [JavaType.substitute, found]

end Substitution

/-! ### Regular tables -/

/-- Whether a declared supertype is a class type with all its arguments, each of which is a
parameter of the class or rigid. -/
def ClassDecl.admits (arity : String → Nat) (d : ClassDecl) : JavaType → Bool
  | .declared sup args => args.length == arity sup && args.all fun
    | .var x _ _ => d.typeParams.contains x
    | arg => arg.isRigid arity
  | _ => false

/-- A class type with all its arguments is not raw. -/
theorem ClassDecl.isRaw_eq_false {d : ClassDecl} {args : List JavaType}
    (full : args.length = d.typeParams.length) : d.isRaw args = false := by
  unfold isRaw
  cases args with
  | nil =>
    rw [List.length_eq_zero_iff.mp full.symm]
    rfl
  | cons _ _ => rfl

/-- A class type applied to the parameters of its class. -/
def ClassDecl.selfType (d : ClassDecl) : JavaType :=
  .declared d.name (d.typeParams.map .freeVariable)

/-- Supertypes are class types over parameters and rigid types, no class is above itself, the
classes above all arrays are above all of their supertypes, and all chains from one class to another
give the same arguments. -/
structure ClassTable.Regular (t : ClassTable) (arity : String → Nat) : Prop where
  params : ∀ name d, t.find? name = some d → arity name = d.typeParams.length
  supertypes : ∀ name d, t.find? name = some d → ∀ s ∈ d.supertypes, d.admits arity s = true
  acyclic : t.Acyclic
  top : ∀ name ∈ arraySupertypes, t.supertypeNames name = []
  coherent : ∀ name d, t.find? name = some d → ∀ sup vs ws,
    t.Chain d.selfType (.declared sup vs) → t.Chain d.selfType (.declared sup ws) → vs = ws

variable {arity : String → Nat}

/-- A supertype is admitted if it is a class type with all its arguments, each a parameter or rigid.
-/
theorem ClassDecl.admits_iff {d : ClassDecl} {s : JavaType} :
    d.admits arity s = true ↔ ∃ sup args, s = .declared sup args ∧ args.length = arity sup ∧
      ∀ arg ∈ args, (∃ x upper lower, arg = .var x upper lower ∧ x ∈ d.typeParams) ∨
        arg.isRigid arity = true := by
  constructor
  · intro h
    cases s with
    | declared sup args =>
      rw [admits, Bool.and_eq_true, beq_iff_eq, List.all_eq_true] at h
      refine ⟨sup, args, rfl, h.1, fun arg harg => ?_⟩
      have here := h.2 arg harg
      cases arg with
      | var x upper lower => exact .inl ⟨x, upper, lower, rfl, List.contains_iff_mem.mp here⟩
      | _ => exact .inr here
    | _ => exact absurd h Bool.false_ne_true
  · rintro ⟨sup, args, rfl, length, each⟩
    rw [admits, Bool.and_eq_true, beq_iff_eq, List.all_eq_true]
    refine ⟨length, fun arg harg => ?_⟩
    rcases each arg harg with ⟨x, upper, lower, rfl, hx⟩ | rigid
    · exact List.contains_iff_mem.mpr hx
    · cases arg with
      | var _ _ _ => exact absurd rigid Bool.false_ne_true
      | _ => exact rigid

namespace ClassTable

namespace Regular

variable {t : ClassTable} (regular : t.Regular arity)
include regular

/-- In a regular table, declared supertypes are class types. -/
theorem classSupertypes : t.ClassSupertypes := by
  intro name d found s hs
  obtain ⟨sup, args, rfl, -⟩ := ClassDecl.admits_iff.mp (regular.supertypes name d found s hs)
  exact ⟨sup, args, rfl⟩

/-- What is seen from a class type with all its arguments is substituted. -/
theorem viewSupertype_eq {name : String} {d : ClassDecl} (found : t.find? name = some d)
    {args : List JavaType} (full : args.length = arity name) (s : JavaType) :
    d.viewSupertype args s = s.substitute (.ofParameters d.typeParams args) := by
  unfold ClassDecl.viewSupertype
  rw [ClassDecl.isRaw_eq_false (full.trans (regular.params name d found))]
  rfl

/-- Two instances of a class, whose parameters stand for related types, have related arguments
in every declared supertype. -/
theorem forall₂_of_lookup {R : JavaType → JavaType → Prop}
    (rigid : ∀ r, r.isRigid arity = true → r.size ≤ t.weight → R r r) {name : String}
    {d : ClassDecl} (found : t.find? name = some d) {as bs : List JavaType}
    (related : ∀ x ∈ d.typeParams, ∃ a b,
      (Substitution.ofParameters d.typeParams as).lookup x = some a ∧
        (Substitution.ofParameters d.typeParams bs).lookup x = some b ∧ R a b)
    {s : JavaType} (hs : s ∈ d.supertypes) :
    ∃ sup vs ws, s.substitute (.ofParameters d.typeParams as) = .declared sup vs ∧
      s.substitute (.ofParameters d.typeParams bs) = .declared sup ws ∧ vs.length = arity sup ∧
      List.Forall₂ R vs ws := by
  obtain ⟨sup, us, rfl, length, each⟩ :=
    ClassDecl.admits_iff.mp (regular.supertypes name d found s hs)
  refine ⟨sup, _, _, rfl, rfl, ?_, ?_⟩
  · rw [JavaType.substituteEach_eq_map, List.length_map, length]
  · rw [JavaType.substituteEach_eq_map, JavaType.substituteEach_eq_map, List.forall₂_map_left_iff,
      List.forall₂_map_right_iff, List.forall₂_same]
    intro u hu
    rcases each u hu with ⟨x, upper, lower, rfl, hx⟩ | closed
    · obtain ⟨a, b, ha, hb, related⟩ := related x hx
      rw [JavaType.substitute, JavaType.substitute, ha, hb]
      exact related
    · rw [JavaType.substitute_of_isRigid closed, JavaType.substitute_of_isRigid closed]
      refine rigid u closed ?_
      calc u.size ≤ JavaType.sizeList us := JavaType.size_le_sizeList hu
        _ ≤ (JavaType.declared sup us).size := by rw [JavaType.size]; exact Nat.le_add_left _ _
        _ ≤ JavaType.sizeList d.supertypes := JavaType.size_le_sizeList hs
        _ ≤ t.weight := sizeList_supertypes_le_weight (mem_of_find? found)

/-- A chain of supertypes is followed by one from every instance with related arguments. -/
theorem forall₂_of_chain {R : JavaType → JavaType → Prop}
    (rigid : ∀ r, r.isRigid arity = true → r.size ≤ t.weight → R r r) {name : String}
    {as bs : List JavaType} (full : as.length = arity name) (args : List.Forall₂ R as bs)
    {v : JavaType} (chain : t.Chain (.declared name as) v) :
    ∃ sup vs ws, v = .declared sup vs ∧ t.Chain (.declared name bs) (.declared sup ws) ∧
      vs.length = arity sup ∧ List.Forall₂ R vs ws := by
  induction chain with
  | refl => exact ⟨name, as, bs, rfl, .refl, full, args⟩
  | tail _ step ih =>
    obtain ⟨sup, vs, ws, rfl, chain, length, related⟩ := ih
    obtain ⟨found, hs⟩ := step
    rename_i d s
    have length' : ws.length = arity sup := related.length_eq ▸ length
    have complete : vs.length = d.typeParams.length := length.trans (regular.params _ d found)
    obtain ⟨top, vs', ws', left, right, full', related'⟩ := regular.forall₂_of_lookup rigid found
      (fun x hx => Substitution.exists_related complete related hx) hs
    refine ⟨top, vs', ws', ?_, chain.tail ?_, full', related'⟩
    · rw [regular.viewSupertype_eq found length, left]
    · rw [← right, ← regular.viewSupertype_eq found length']
      exact .declared found hs

/-- The arguments at the end of a chain are arguments of the type, or rigid types of the table. -/
theorem args_of_chain {name sup : String} {args vs : List JavaType}
    (full : args.length = arity name)
    (chain : t.Chain (.declared name args) (.declared sup vs)) :
    vs.length = arity sup ∧
      ∀ v ∈ vs, v ∈ args ∨ v.isRigid arity = true ∧ v.size ≤ t.weight := by
  let R (a b : JavaType) : Prop := a = b ∧ (a ∈ args ∨ a.isRigid arity = true ∧ a.size ≤ t.weight)
  obtain ⟨_, _, ws, same, -, length, related⟩ :=
    regular.forall₂_of_chain (R := R) (fun r rigid few => ⟨rfl, .inr ⟨rigid, few⟩⟩) full
      (List.forall₂_same.mpr fun a ha => ⟨rfl, .inl ha⟩) chain
  obtain ⟨rfl, rfl⟩ := JavaType.declared.inj same
  refine ⟨length, fun v hv => ?_⟩
  obtain ⟨i, hi, rfl⟩ := List.getElem_of_mem hv
  exact (related.get hi (related.length_eq ▸ hi)).2

end Regular

end ClassTable

end JavaRefactor
