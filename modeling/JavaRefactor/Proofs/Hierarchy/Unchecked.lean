import JavaRefactor.Proofs.Hierarchy.Preorder

/-!
# Unchecked conversion of ground types

Unchecked conversion is about raw types.  Ground types have all their arguments, and in a regular
table so have all their views, so there the unchecked form of subtyping says no more than the
checked one (`ClassTable.Regular.isSubtype_of_unchecked`).
-/

namespace JavaRefactor

namespace ClassTable

variable {t : ClassTable} {arity : String → Nat} {a b : JavaType}

/-- A ground argument that contains another does so also if fewer types are below others, as long
as ground ones stay so. -/
theorem containsArgument_of_ground {f g : JavaType → JavaType → Option Bool}
    (h : ∀ a b : JavaType, a.isGround arity false = true → b.isGround arity false = true →
      f a b = some true → g a b = some true) {formal actual : JavaType}
    (hf : formal.isGround arity true = true) (ha : actual.isGround arity true = true)
    (contains : containsArgument f formal actual = some true) :
    containsArgument g formal actual = some true := by
  rw [containsArgument_iff hf] at contains ⊢
  cases contains with
  | same plain => exact .same plain
  | free open_end => exact .free open_end
  | upper about below =>
    have hx := (JavaType.core_of_isGround ha about.core).1
    have hy := (JavaType.core_of_isGround hf rfl).1
    exact .upper about (h _ _ hx hy below)
  | lower about above =>
    have hx := (JavaType.core_of_isGround ha about.core).1
    have hy := (JavaType.core_of_isGround hf rfl).1
    exact .lower about (h _ _ hy hx above)

/-- A view of a ground type that fits in the unchecked form fits in the checked form. -/
theorem Regular.viewFits_checked (regular : t.Regular arity)
    {f g : JavaType → JavaType → Option Bool}
    (h : ∀ a b : JavaType, a.isGround arity false = true → b.isGround arity false = true →
      f a b = some true → g a b = some true)
    {name target : String} {args sups : List JavaType} {n : Nat} {view : Option JavaType}
    (ha : (JavaType.declared name args).isGround arity false = true)
    (hb : (JavaType.declared target sups).isGround arity false = true)
    (proper : target ≠ JavaType.objectName)
    (found : t.asSuperWithin n (.declared name args) target = some view)
    (fits : viewFits f true sups view = some true) : viewFits g false sups view = some true := by
  obtain ⟨full, each⟩ := JavaType.isGround_declared.mp ha
  obtain ⟨full', each'⟩ := JavaType.isGround_declared.mp hb
  unfold viewFits at fits ⊢
  split at fits
  · rename_i other vs
    obtain ⟨rfl, -, length, origin⟩ := regular.args_of_asSuperWithin full proper found
    have same : vs.length = sups.length := length.trans full'.symm
    cases sups with
    | nil => rfl
    | cons s ss =>
      cases vs with
      | nil => exact absurd same (by simp)
      | cons v vs =>
        rw [if_neg (by simp), if_neg (by simp), if_pos same] at fits ⊢
        rw [allPairs_eq_true_iff] at fits ⊢
        intro p hp
        have hv : p.2.isGround arity true = true := by
          rcases origin _ (List.of_mem_zip hp).2 with mem | ⟨rigid, -⟩
          · exact each _ mem
          · exact JavaType.isGround_of_isRigid _ rigid
        exact containsArgument_of_ground h (each' _ (List.of_mem_zip hp).1) hv (fits p hp)
  · exact absurd fits (by decide)

/-- What is decided to be a subtype with unchecked conversion is one without it. -/
theorem Regular.subtypeWithin_checked (regular : t.Regular arity) {n : Nat}
    (ha : a.isGround arity false = true) (hb : b.isGround arity false = true)
    (h : t.subtypeWithin true n a b = some true) : t.subtypeWithin false n a b = some true := by
  -- The two forms differ only where a view lacks the arguments that the type above has, and ground
  -- types of a regular table have no such views.
  induction n generalizing a b with
  | zero => exact absurd h (by simp [subtypeWithin])
  | succ n ih =>
    unfold subtypeWithin at h ⊢
    split
    · rfl
    · rename_i different
      rw [if_neg different] at h
      split
      · rename_i root
        rwa [if_pos root] at h
      · rename_i proper
        rw [if_neg proper] at h
        cases a with
        | primitive p =>
          cases p with
          | null => exact h
          | _ => cases b <;> exact h
        | array x =>
          cases b with
          | array y =>
            change (if (x.isPrimitive || y.isPrimitive) = true then _ else _) = _ at h
            change (if (x.isPrimitive || y.isPrimitive) = true then _ else _) = _
            split
            · rename_i primitive
              rwa [if_pos primitive] at h
            · rename_i reference
              rw [if_neg reference] at h
              exact ih ha hb h
          | var _ _ _ => exact absurd hb Bool.false_ne_true
          | _ => exact h
        | declared name args =>
          cases b with
          | declared target sups =>
            have proper : target ≠ JavaType.objectName := fun root => proper (congrArg some root)
            change (t.asSuperWithin (n + 1) (.declared name args) target).bind _ = _ at h
            obtain ⟨view, found, fits⟩ := Option.bind_eq_some_iff.mp h
            exact Option.bind_eq_some_iff.mpr ⟨view, found,
              regular.viewFits_checked (fun _ _ hx hy => ih hx hy) ha hb proper found fits⟩
          | var _ _ _ => exact absurd hb Bool.false_ne_true
          | _ => exact h
        | _ => exact absurd ha Bool.false_ne_true

/-- Of ground types in a regular table, unchecked subtypes are subtypes. -/
theorem Regular.isSubtype_of_unchecked (regular : t.Regular arity)
    (ha : a.isGround arity false = true) (hb : b.isGround arity false = true)
    (h : t.isSubtypeUnchecked a b = true) : t.isSubtype a b = true := by
  obtain ⟨n, h⟩ := isSubtypeIn_iff.mp h
  exact isSubtypeIn_iff.mpr ⟨n, regular.subtypeWithin_checked ha hb h⟩

end ClassTable

end JavaRefactor
