import JavaRefactor.Proofs.Hierarchy.Instances

/-!
# Views of related types

A relation between types of one class that passes on to their direct supertypes, place by place,
passes on to their views (`ClassTable.Simulates.rel_asSuperWithin`), as the search takes the same
way from both.  So two types of one class whose arguments are related have the same views, with
related arguments (`ClassTable.rel_asSuperWithin`).  Arguments may be related in any way that does
not get lost when they are substituted into a declared supertype.
-/

namespace JavaRefactor

variable {R : JavaType → JavaType → Prop}

/-- Two types of one class have related arguments. -/
inductive SameClass (R : JavaType → JavaType → Prop) : JavaType → JavaType → Prop where
  | declared {name : String} {as bs : List JavaType} :
    List.Forall₂ R as bs → SameClass R (.declared name as) (.declared name bs)

/-- Substituting related arguments for the parameters of a class does not leave the relation. -/
def SubstitutionClosed (R : JavaType → JavaType → Prop) : Prop :=
  ∀ (params : List String) (as bs : List JavaType), List.Forall₂ R as bs → ∀ u : JavaType,
    R (u.substitute (.ofParameters params as)) (u.substitute (.ofParameters params bs))

/-! ### Lookups -/

namespace Substitution

/-- Where two substitutions have related entries in the same order, they have related entries for
each name. -/
theorem rel_lookup {σ τ : Substitution}
    (related : List.Forall₂ (fun p q => p.1 = q.1 ∧ R p.2 q.2) σ τ) (name : String) :
    Option.Rel R (σ.lookup name) (τ.lookup name) := by
  induction related with
  | nil => exact .none
  | @cons p q _ _ here _ ih =>
    obtain ⟨key, here⟩ := here
    rw [List.lookup_cons, List.lookup_cons, key]
    cases name == q.1 with
    | true => exact .some here
    | false => exact ih

/-- Related arguments stand for the same parameters. -/
theorem rel_ofParameters {as bs : List JavaType} (related : List.Forall₂ R as bs)
    (params : List String) (name : String) :
    Option.Rel R ((ofParameters params as).lookup name)
      ((ofParameters params bs).lookup name) := by
  refine rel_lookup (List.rel_reverse ?_) name
  induction related generalizing params with
  | nil =>
    rw [List.zip_nil_right]
    exact .nil
  | cons here _ ih =>
    cases params with
    | nil => exact .nil
    | cons p params => exact .cons ⟨rfl, here⟩ (ih params)

end Substitution

/-! ### Views -/

/-- The first views that are found from related types are related if all views are. -/
theorem rel_firstView {P Q : JavaType → JavaType → Prop}
    {view view' : JavaType → Option (Option JavaType)} {ss ss' : List JavaType}
    (related : List.Forall₂ P ss ss')
    (h : ∀ s s', P s s' → Option.Rel (Option.Rel Q) (view s) (view' s')) :
    Option.Rel (Option.Rel Q) (firstView view ss) (firstView view' ss') := by
  induction related with
  | nil => exact .some .none
  | @cons s s' _ _ here _ ih =>
    unfold firstView
    have both := h s s' here
    generalize view s = left at both ⊢
    generalize view' s' = right at both ⊢
    cases both with
    | none => exact .none
    | some found =>
      cases found with
      | none => exact ih
      | some same => exact .some (.some same)

/-- Related types are types of one class, and from both each declared supertype of the class is
seen as related types; the root class is related to itself. -/
structure ClassTable.Simulates (t : ClassTable) (P : JavaType → JavaType → Prop) : Prop where
  sameClass : ∀ s s', P s s' → ∃ name as bs, s = .declared name as ∧ s' = .declared name bs
  root : P .object .object
  supertypes : ∀ name as bs d, t.find? name = some d →
    P (.declared name as) (.declared name bs) →
      ∀ s ∈ d.supertypes, P (d.viewSupertype as s) (d.viewSupertype bs s)

namespace ClassTable.Simulates

variable {t : ClassTable} {P : JavaType → JavaType → Prop} {s s' : JavaType}

/-- Related types have related views as every class. -/
theorem rel_asSuperWithin (sim : t.Simulates P) (h : P s s') (n : Nat) (target : String) :
    Option.Rel (Option.Rel P) (t.asSuperWithin n s target) (t.asSuperWithin n s' target) := by
  induction n generalizing s s' with
  | zero => exact .none
  | succ n ih =>
    obtain ⟨name, as, bs, rfl, rfl⟩ := sim.sameClass s s' h
    unfold asSuperWithin
    split
    · exact .some (.some h)
    · split
      · exact .some (.some sim.root)
      · split
        · exact .some .none
        · rename_i d found
          refine rel_firstView (P := P) ?_ fun _ _ above => ih above
          refine List.forall₂_map_left_iff.mpr (List.forall₂_map_right_iff.mpr ?_)
          exact List.forall₂_same.mpr (sim.supertypes name as bs d found h)

/-- A chain from the second of two related types runs beside one from the first. -/
theorem exists_chain (sim : t.Simulates P) (h : P s s') {v' : JavaType} (chain : t.Chain s' v') :
    ∃ v, t.Chain s v ∧ P v v' := by
  induction chain with
  | refl => exact ⟨s, .refl, h⟩
  | tail _ step ih =>
    obtain ⟨u, chain, related⟩ := ih
    obtain ⟨name, as, bs, rfl, rfl⟩ := sim.sameClass _ _ related
    obtain ⟨found, hs⟩ := step
    exact ⟨_, chain.tail (.declared found hs), sim.supertypes name as bs _ found related _ hs⟩

end ClassTable.Simulates

/-- A supertype that is declared for a class, seen from two types of the class with related
arguments. -/
theorem sameClass_viewSupertype (closed : SubstitutionClosed R) (d : ClassDecl)
    {as bs : List JavaType} (related : List.Forall₂ R as bs) (sup : String) (us : List JavaType) :
    SameClass R (d.viewSupertype as (.declared sup us))
      (d.viewSupertype bs (.declared sup us)) := by
  have raw : d.isRaw as = d.isRaw bs := by
    unfold ClassDecl.isRaw
    cases related with
    | nil => rfl
    | cons _ _ => rfl
  unfold ClassDecl.viewSupertype
  rw [← raw]
  cases d.isRaw as with
  | true => exact .declared .nil
  | false =>
    refine .declared ?_
    rw [JavaType.substituteEach_eq_map, JavaType.substituteEach_eq_map,
      List.forall₂_map_left_iff, List.forall₂_map_right_iff, List.forall₂_same]
    exact fun u _ => closed d.typeParams as bs related u

namespace ClassTable

/-- Having related arguments passes on to direct supertypes. -/
theorem simulates_sameClass {t : ClassTable} (closed : SubstitutionClosed R)
    (supers : t.ClassSupertypes) : t.Simulates (SameClass R) where
  sameClass := by
    rintro _ _ ⟨related⟩
    exact ⟨_, _, _, rfl, rfl⟩
  root := .declared .nil
  supertypes := by
    rintro name as bs d found ⟨related⟩ s hs
    obtain ⟨sup, us, rfl⟩ := supers name d found s hs
    exact sameClass_viewSupertype closed d related sup us

/-- Two types of one class with related arguments have related views as every class. -/
theorem rel_asSuperWithin {t : ClassTable} (closed : SubstitutionClosed R)
    (supers : t.ClassSupertypes) {as bs : List JavaType} (related : List.Forall₂ R as bs) (n : Nat)
    (name target : String) :
    Option.Rel (Option.Rel (SameClass R)) (t.asSuperWithin n (.declared name as) target)
      (t.asSuperWithin n (.declared name bs) target) :=
  (simulates_sameClass closed supers).rel_asSuperWithin (.declared related) n target

/-- A view as a class is matched by a view of every type of the same class with related
arguments. -/
theorem exists_view_of_related {t : ClassTable} (closed : SubstitutionClosed R)
    (supers : t.ClassSupertypes) {as bs : List JavaType} (related : List.Forall₂ R as bs) {n : Nat}
    {name target other : String} {ws : List JavaType}
    (h : t.asSuperWithin n (.declared name bs) target = some (some (.declared other ws))) :
    ∃ vs, t.asSuperWithin n (.declared name as) target = some (some (.declared other vs)) ∧
      List.Forall₂ R vs ws := by
  have both := rel_asSuperWithin closed supers related n name target
  rw [h] at both
  generalize t.asSuperWithin n (.declared name as) target = view at both ⊢
  obtain ⟨⟨⟨each⟩⟩⟩ := both
  exact ⟨_, rfl, each⟩

end ClassTable

end JavaRefactor
