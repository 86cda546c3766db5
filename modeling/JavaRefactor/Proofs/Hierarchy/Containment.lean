import JavaRefactor.Proofs.Hierarchy.Termination

/-!
# Containment of type arguments

The comparison of type arguments decides a relation that only depends on how the types are related
that the arguments are about (`containsArgument_iff`).  It is transitive if the relation of
types is, at the types that the argument in the middle is about (`Contains.trans`).
-/

namespace JavaRefactor

/-- A type argument is about a type: as a wildcard with a bound of the given kind, or as a type
that is no wildcard. -/
def JavaType.IsAbout (kind : WildcardKind) (arg x : JavaType) : Prop :=
  arg = .wildcard kind (some x) ∨ arg = x ∧ x.isWildcard = false

/-- A type argument that is about a type has it as its core. -/
theorem JavaType.IsAbout.core {kind : WildcardKind} {arg x : JavaType}
    (about : arg.IsAbout kind x) : arg.core? = some x := by
  rcases about with rfl | ⟨rfl, plain⟩
  · rfl
  · cases arg with
    | wildcard _ _ => exact absurd plain (by simp [isWildcard])
    | _ => rfl

/-- A type argument contains another, given how their types are related. -/
inductive Contains (below : JavaType → JavaType → Prop) : JavaType → JavaType → Prop where
  | same {arg : JavaType} : arg.isWildcard = false → Contains below arg arg
  | free {kind : WildcardKind} {bound : Option JavaType} {arg : JavaType} :
    kind = .unbounded ∨ bound = none → Contains below (.wildcard kind bound) arg
  | upper {arg x y : JavaType} : arg.IsAbout .upper x → below x y →
    Contains below (.wildcard .upper (some y)) arg
  | lower {arg x y : JavaType} : arg.IsAbout .lower x → below y x →
    Contains below (.wildcard .lower (some y)) arg

variable {arity : String → Nat} {below : JavaType → JavaType → Prop}

/-- What contains a type argument goes on to do so if more types are below each other. -/
theorem Contains.mono {below' : JavaType → JavaType → Prop} (h : ∀ a b, below a b → below' a b)
    {formal actual : JavaType} (contains : Contains below formal actual) :
    Contains below' formal actual := by
  cases contains with
  | same plain => exact .same plain
  | free open_end => exact .free open_end
  | upper about hxy => exact .upper about (h _ _ hxy)
  | lower about hxy => exact .lower about (h _ _ hxy)

section Decision

variable {decide : JavaType → JavaType → Option Bool} {formal actual y : JavaType}

/-- A wildcard with an upper bound contains the arguments that are about a type below it. -/
theorem containsArgument_upper_iff :
    containsArgument decide (.wildcard .upper (some y)) actual = some true ↔
      ∃ x, actual.IsAbout .upper x ∧ decide x y = some true := by
  constructor
  · intro h
    cases actual with
    | wildcard kind bound =>
      cases kind <;> cases bound <;>
        first | exact ⟨_, .inl rfl, h⟩ | exact absurd h (by simp [containsArgument])
    | _ => exact ⟨_, .inr ⟨rfl, rfl⟩, h⟩
  · rintro ⟨x, rfl | ⟨rfl, plain⟩, below⟩
    · exact below
    · cases actual with
      | wildcard _ _ => exact absurd plain (by simp [JavaType.isWildcard])
      | _ => exact below

/-- A wildcard with a lower bound contains the arguments that are about a type above it. -/
theorem containsArgument_lower_iff :
    containsArgument decide (.wildcard .lower (some y)) actual = some true ↔
      ∃ x, actual.IsAbout .lower x ∧ decide y x = some true := by
  constructor
  · intro h
    cases actual with
    | wildcard kind bound =>
      cases kind <;> cases bound <;>
        first | exact ⟨_, .inl rfl, h⟩ | exact absurd h (by simp [containsArgument])
    | _ => exact ⟨_, .inr ⟨rfl, rfl⟩, h⟩
  · rintro ⟨x, rfl | ⟨rfl, plain⟩, above⟩
    · exact above
    · cases actual with
      | wildcard _ _ => exact absurd plain (by simp [JavaType.isWildcard])
      | _ => exact above

/-- The comparison of ground arguments decides containment. -/
theorem containsArgument_iff (ground : formal.isGround arity true = true) :
    containsArgument decide formal actual = some true ↔
      Contains (fun a b => decide a b = some true) formal actual := by
  constructor
  · intro h
    cases formal with
    | wildcard kind bound =>
      cases bound with
      | none => exact .free (.inr rfl)
      | some y =>
        cases kind with
        | unbounded => exact .free (.inl rfl)
        | upper =>
          obtain ⟨x, about, below⟩ := containsArgument_upper_iff.mp h
          exact .upper about below
        | lower =>
          obtain ⟨x, about, above⟩ := containsArgument_lower_iff.mp h
          exact .lower about above
    | _ =>
      have same := JavaType.eq_of_isSame _ _ ground (Option.some.inj h)
      exact same ▸ .same rfl
  · intro h
    cases h with
    | same plain =>
      cases formal with
      | wildcard _ _ => exact absurd plain (by simp [JavaType.isWildcard])
      | _ => exact congrArg some (JavaType.isSame_refl _)
    | free open_end =>
      rcases open_end with rfl | rfl
      · rfl
      · rename_i kind
        cases kind <;> rfl
    | upper about below => exact containsArgument_upper_iff.mpr ⟨_, about, below⟩
    | lower about above => exact containsArgument_lower_iff.mpr ⟨_, about, above⟩

end Decision

/-- Containment is transitive if the relation of types is at the types that the argument in the
middle is about. -/
theorem Contains.trans {formal middle actual : JavaType}
    (through : ∀ x, middle.isWildcard = true → middle.core? = some x → ∀ a c,
      a.isGround arity false = true → c.isGround arity false = true →
      below a x → below x c → below a c)
    (hf : formal.isGround arity true = true) (ha : actual.isGround arity true = true)
    (left : Contains below formal middle) (right : Contains below middle actual) :
    Contains below formal actual := by
  -- a type that is no wildcard contains itself only
  have only_same {x : JavaType} (plain : x.isWildcard = false) (h : Contains below x actual) :
      actual = x := by
    cases h with
    | same _ => rfl
    | free _ | upper _ _ | lower _ _ => exact absurd plain (by simp [JavaType.isWildcard])
  cases left with
  | same plain => exact right
  | free open_end => exact .free open_end
  | upper about hxy =>
    rename_i x y
    rcases about with rfl | ⟨rfl, plain⟩
    · cases right with
      | same plain => exact absurd plain (by simp [JavaType.isWildcard])
      | free open_end => simp at open_end
      | upper about hx =>
        have gx := (JavaType.core_of_isGround ha about.core).1
        have gy := (JavaType.core_of_isGround hf rfl).1
        exact .upper about (through x rfl rfl _ _ gx gy hx hxy)
    · obtain rfl := only_same plain right
      exact .upper (.inr ⟨rfl, plain⟩) hxy
  | lower about hxy =>
    rename_i x y
    rcases about with rfl | ⟨rfl, plain⟩
    · cases right with
      | same plain => exact absurd plain (by simp [JavaType.isWildcard])
      | free open_end => simp at open_end
      | lower about hx =>
        have gx := (JavaType.core_of_isGround ha about.core).1
        have gy := (JavaType.core_of_isGround hf rfl).1
        exact .lower about (through x rfl rfl _ _ gy gx hxy hx)
    · obtain rfl := only_same plain right
      exact .lower (.inr ⟨rfl, plain⟩) hxy

end JavaRefactor
