import JavaRefactor.Matching.Type

/-!
# Instances of patterns of types

An instance of a pattern of types has a type of its own at each place of a type parameter, whatever
the name of the parameter, and is the pattern elsewhere.  Matching disregards quantifiers: a pattern
accepts a type exactly if, without quantifiers, the type is an instance of the pattern with types
that are not primitive (`TypePattern.accepts_iff`), and then matching passes on the bindings as they
were (`TypePattern.unify_eq_some_iff`).  For this, quantifiers must stand in front of signatures, as
signatures are all that is looked for behind them.
-/

namespace JavaRefactor

/-! ### Quantifiers -/

namespace JavaType

/-- Whether a type is a signature, with or without quantifiers in front of it. -/
def isSignature : JavaType → Bool
  | .method _ _ => true
  | .generic _ signature => isSignature signature
  | _ => false

mutual

/-- Whether all quantifiers stand in front of signatures, bounds of variables not counted. -/
def quantifiesSignatures : JavaType → Bool
  | .primitive _ | .var _ _ _ | .unknown => true
  | .declared _ args => quantifiesSignaturesEach args
  | .array element => quantifiesSignatures element
  | .wildcard _ bound => quantifiesSignaturesOption bound
  | .method params ret => quantifiesSignaturesEach params && quantifiesSignatures ret
  | .generic _ signature => isSignature signature && quantifiesSignatures signature

/-- Whether all quantifiers in some types stand in front of signatures. -/
def quantifiesSignaturesEach : List JavaType → Bool
  | [] => true
  | t :: ts => quantifiesSignatures t && quantifiesSignaturesEach ts

/-- Whether all quantifiers in an optional type stand in front of signatures. -/
def quantifiesSignaturesOption : Option JavaType → Bool
  | none => true
  | some t => quantifiesSignatures t

end

mutual

/-- A type with all quantifiers taken away. -/
def withoutQuantifiers : JavaType → JavaType
  | .primitive kind => .primitive kind
  | .declared name args => .declared name (withoutQuantifiersEach args)
  | .array element => .array (withoutQuantifiers element)
  | .var name upper lower =>
    .var name (withoutQuantifiers upper) (withoutQuantifiersOption lower)
  | .wildcard kind bound => .wildcard kind (withoutQuantifiersOption bound)
  | .method params ret => .method (withoutQuantifiersEach params) (withoutQuantifiers ret)
  | .generic _ signature => withoutQuantifiers signature
  | .unknown => .unknown

/-- Some types with all quantifiers taken away. -/
def withoutQuantifiersEach : List JavaType → List JavaType
  | [] => []
  | t :: ts => withoutQuantifiers t :: withoutQuantifiersEach ts

/-- An optional type with all quantifiers taken away. -/
def withoutQuantifiersOption : Option JavaType → Option JavaType
  | none => none
  | some t => some (withoutQuantifiers t)

end

/-- Behind the quantifiers of a signature stands a signature without any. -/
theorem exists_method_of_isSignature :
    (t : JavaType) → t.isSignature = true → ∃ params ret, t.unquantified = .method params ret
  | .method params ret, _ => ⟨params, ret, rfl⟩
  | .generic _ signature, h => exists_method_of_isSignature signature h
  | .primitive _, h | .declared _ _, h | .array _, h | .var _ _ _, h | .wildcard _ _, h
  | .unknown, h => absurd h Bool.false_ne_true

/-- Taking away all quantifiers takes away those in front. -/
theorem withoutQuantifiers_unquantified :
    (t : JavaType) → t.unquantified.withoutQuantifiers = t.withoutQuantifiers
  | .generic _ signature => withoutQuantifiers_unquantified signature
  | .method _ _ | .primitive _ | .declared _ _ | .array _ | .var _ _ _ | .wildcard _ _
  | .unknown => rfl

/-- No quantifier is left in front. -/
theorem unquantified_ne_generic :
    (t : JavaType) → ∀ vars signature, t.unquantified ≠ .generic vars signature
  | .generic _ signature => unquantified_ne_generic signature
  | .method _ _ | .primitive _ | .declared _ _ | .array _ | .var _ _ _ | .wildcard _ _
  | .unknown => fun _ _ => JavaType.noConfusion

/-- Behind the quantifiers in front, the others still stand in front of signatures. -/
theorem quantifiesSignatures_unquantified :
    (t : JavaType) → t.quantifiesSignatures = true → t.unquantified.quantifiesSignatures = true
  | .generic _ signature, h =>
    quantifiesSignatures_unquantified signature (Bool.and_eq_true_iff.mp h).2
  | .method _ _, h | .primitive _, h | .declared _ _, h | .array _, h | .var _ _ _, h
  | .wildcard _ _, h | .unknown, h => h

/-- Without its quantifiers, a quantified type is a signature. -/
theorem exists_withoutQuantifiers_eq_method {vars : List String} {signature : JavaType}
    (h : (generic vars signature).quantifiesSignatures = true) :
    ∃ params ret, (generic vars signature).withoutQuantifiers = .method params ret := by
  obtain ⟨params, ret, bare⟩ :=
    exists_method_of_isSignature signature (Bool.and_eq_true_iff.mp h).1
  refine ⟨withoutQuantifiersEach params, ret.withoutQuantifiers, ?_⟩
  rw [withoutQuantifiers, ← withoutQuantifiers_unquantified, bare, withoutQuantifiers]

/-- Quantifiers make no difference to whether a type is primitive. -/
theorem isPrimitive_withoutQuantifiers {t : JavaType} (h : t.quantifiesSignatures = true) :
    t.withoutQuantifiers.isPrimitive = t.isPrimitive := by
  cases t with
  | generic vars signature =>
    obtain ⟨params, ret, bare⟩ := exists_withoutQuantifiers_eq_method h
    rw [bare]
    rfl
  | _ => rfl

end JavaType

namespace TypePattern

/-- Whether a pattern is one of signatures, with or without quantifiers in front of it. -/
def isSignature : TypePattern → Bool
  | .method _ _ => true
  | .generic _ signature => isSignature signature
  | _ => false

mutual

/-- Whether all quantifiers stand in front of signatures. -/
def quantifiesSignatures : TypePattern → Bool
  | .primitive _ | .var _ => true
  | .declared _ args => quantifiesSignaturesEach args
  | .array element => quantifiesSignatures element
  | .wildcard _ bound => quantifiesSignaturesOption bound
  | .method params ret => quantifiesSignaturesEach params && quantifiesSignatures ret
  | .generic _ signature => isSignature signature && quantifiesSignatures signature

/-- Whether all quantifiers in some patterns stand in front of signatures. -/
def quantifiesSignaturesEach : List TypePattern → Bool
  | [] => true
  | p :: ps => quantifiesSignatures p && quantifiesSignaturesEach ps

/-- Whether all quantifiers in an optional pattern stand in front of signatures. -/
def quantifiesSignaturesOption : Option TypePattern → Bool
  | none => true
  | some p => quantifiesSignatures p

end

mutual

/-- A pattern with all quantifiers taken away. -/
def withoutQuantifiers : TypePattern → TypePattern
  | .primitive kind => .primitive kind
  | .declared name args => .declared name (withoutQuantifiersEach args)
  | .array element => .array (withoutQuantifiers element)
  | .var name => .var name
  | .wildcard kind bound => .wildcard kind (withoutQuantifiersOption bound)
  | .method params ret => .method (withoutQuantifiersEach params) (withoutQuantifiers ret)
  | .generic _ signature => withoutQuantifiers signature

/-- Some patterns with all quantifiers taken away. -/
def withoutQuantifiersEach : List TypePattern → List TypePattern
  | [] => []
  | p :: ps => withoutQuantifiers p :: withoutQuantifiersEach ps

/-- An optional pattern with all quantifiers taken away. -/
def withoutQuantifiersOption : Option TypePattern → Option TypePattern
  | none => none
  | some p => some (withoutQuantifiers p)

end

/-- Without quantifiers, a pattern of signatures is a signature of patterns. -/
theorem exists_withoutQuantifiers_eq_method :
    (p : TypePattern) → p.isSignature = true →
      ∃ params ret, p.withoutQuantifiers = .method params ret
  | .method _ _, _ => ⟨_, _, rfl⟩
  | .generic _ signature, h => exists_withoutQuantifiers_eq_method signature h
  | .primitive _, h | .declared _ _, h | .array _, h | .var _, h | .wildcard _ _, h =>
    absurd h Bool.false_ne_true

/-! ### Instances -/

/-- A place in a pattern: which branch to take wherever there are two, the first or the second. -/
abbrev Place := List Bool

/-- Types for the places of two branches. -/
def forkPlaces (ρ τ : Place → JavaType) : Place → JavaType
  | [] => .object
  | false :: place => ρ place
  | true :: place => τ place

mutual

/-- A pattern with a type put in at each place of a type parameter. -/
def instantiate (ρ : Place → JavaType) : TypePattern → JavaType
  | .primitive kind => .primitive kind
  | .declared name args => .declared name (instantiateEach ρ args)
  | .array element => .array (instantiate ρ element)
  | .var _ => ρ []
  | .wildcard kind bound => .wildcard kind (instantiateOption ρ bound)
  | .method params ret =>
    .method (instantiateEach (fun place => ρ (false :: place)) params)
      (instantiate (fun place => ρ (true :: place)) ret)
  | .generic vars signature => .generic vars (instantiate ρ signature)

/-- Some patterns with types put in. -/
def instantiateEach (ρ : Place → JavaType) : List TypePattern → List JavaType
  | [] => []
  | p :: ps =>
    instantiate (fun place => ρ (false :: place)) p ::
      instantiateEach (fun place => ρ (true :: place)) ps

/-- An optional pattern with types put in. -/
def instantiateOption (ρ : Place → JavaType) : Option TypePattern → Option JavaType
  | none => none
  | some p => some (instantiate ρ p)

end

/-- Types for places, none of them primitive. -/
def AreReferences (ρ : Place → JavaType) : Prop := ∀ place, (ρ place).isPrimitive = false

/-- A type is the pattern with a type that is not primitive put in at each place of a type
parameter. -/
def HasInstance (p : TypePattern) (t : JavaType) : Prop :=
  ∃ ρ, AreReferences ρ ∧ p.instantiate ρ = t

/-- Some types are instances of as many patterns. -/
def HaveInstances (ps : List TypePattern) (ts : List JavaType) : Prop :=
  ∃ ρ, AreReferences ρ ∧ instantiateEach ρ ps = ts

/-- An optional type is an instance of an optional pattern. -/
def HasInstanceOption (x : Option TypePattern) (y : Option JavaType) : Prop :=
  ∃ ρ, AreReferences ρ ∧ instantiateOption ρ x = y

/-- The root class is a reference. -/
theorem areReferences_object : AreReferences fun _ => .object := fun _ => rfl

/-- What is put in at the places of two branches is independent. -/
theorem exists_fork {A B : (Place → JavaType) → Prop} :
    (∃ ρ, AreReferences ρ ∧ A (fun place => ρ (false :: place)) ∧
        B (fun place => ρ (true :: place))) ↔
      (∃ ρ, AreReferences ρ ∧ A ρ) ∧ ∃ ρ, AreReferences ρ ∧ B ρ := by
  constructor
  · rintro ⟨ρ, references, left, right⟩
    exact ⟨⟨_, fun place => references _, left⟩, ⟨_, fun place => references _, right⟩⟩
  · rintro ⟨⟨ρ, references, left⟩, ⟨τ, references', right⟩⟩
    refine ⟨forkPlaces ρ τ, fun place => ?_, left, right⟩
    match place with
    | [] => rfl
    | false :: place => exact references place
    | true :: place => exact references' place

section Forms

variable {t : JavaType}

/-- A primitive type is its only instance. -/
theorem hasInstance_primitive {kind : Primitive} :
    (primitive kind).HasInstance t ↔ .primitive kind = t :=
  ⟨fun ⟨_, _, same⟩ => same, fun same => ⟨_, areReferences_object, same⟩⟩

/-- The instances of a class type have the class and as many instances as arguments. -/
theorem hasInstance_declared {name : String} {args : List TypePattern} :
    (declared name args).HasInstance t ↔ ∃ ts, .declared name ts = t ∧ HaveInstances args ts := by
  constructor
  · rintro ⟨ρ, references, rfl⟩
    exact ⟨_, rfl, ρ, references, rfl⟩
  · rintro ⟨_, rfl, ρ, references, rfl⟩
    exact ⟨ρ, references, rfl⟩

/-- The instances of an array type are the arrays of instances. -/
theorem hasInstance_array {element : TypePattern} :
    (array element).HasInstance t ↔ ∃ u, .array u = t ∧ element.HasInstance u := by
  constructor
  · rintro ⟨ρ, references, rfl⟩
    exact ⟨_, rfl, ρ, references, rfl⟩
  · rintro ⟨_, rfl, ρ, references, rfl⟩
    exact ⟨ρ, references, rfl⟩

/-- The instances of a type parameter are all types that are not primitive. -/
theorem hasInstance_var {name : String} : (var name).HasInstance t ↔ t.isPrimitive = false := by
  constructor
  · rintro ⟨ρ, references, rfl⟩
    exact references []
  · exact fun reference => ⟨fun _ => t, fun _ => reference, rfl⟩

/-- The instances of a wildcard have its kind and an instance for its bound. -/
theorem hasInstance_wildcard {kind : WildcardKind} {bound : Option TypePattern} :
    (wildcard kind bound).HasInstance t ↔
      ∃ y, .wildcard kind y = t ∧ HasInstanceOption bound y := by
  constructor
  · rintro ⟨ρ, references, rfl⟩
    exact ⟨_, rfl, ρ, references, rfl⟩
  · rintro ⟨_, rfl, ρ, references, rfl⟩
    exact ⟨ρ, references, rfl⟩

/-- The instances of a signature have instances for its parameters and its result. -/
theorem hasInstance_method {params : List TypePattern} {ret : TypePattern} :
    (method params ret).HasInstance t ↔
      ∃ ts u, .method ts u = t ∧ HaveInstances params ts ∧ ret.HasInstance u := by
  constructor
  · rintro ⟨ρ, references, rfl⟩
    exact ⟨_, _, rfl, exists_fork.mp ⟨ρ, references, rfl, rfl⟩⟩
  · rintro ⟨ts, u, rfl, both⟩
    obtain ⟨ρ, references, left, right⟩ := exists_fork.mpr both
    exact ⟨ρ, references, by rw [instantiate, left, right]⟩

/-- No patterns have no instances but no types. -/
theorem haveInstances_nil {ts : List JavaType} : HaveInstances [] ts ↔ [] = ts :=
  ⟨fun ⟨_, _, same⟩ => same, fun same => ⟨_, areReferences_object, same⟩⟩

/-- Instances of some patterns are an instance of the first one and instances of the others. -/
theorem haveInstances_cons {p : TypePattern} {ps : List TypePattern} {ts : List JavaType} :
    HaveInstances (p :: ps) ts ↔
      ∃ u us, u :: us = ts ∧ p.HasInstance u ∧ HaveInstances ps us := by
  constructor
  · rintro ⟨ρ, references, rfl⟩
    exact ⟨_, _, rfl, exists_fork.mp ⟨ρ, references, rfl, rfl⟩⟩
  · rintro ⟨u, us, rfl, both⟩
    obtain ⟨ρ, references, left, right⟩ := exists_fork.mpr both
    exact ⟨ρ, references, by rw [instantiateEach, left, right]⟩

/-- The only instance of an absent pattern is that there is none. -/
theorem hasInstanceOption_none {y : Option JavaType} : HasInstanceOption none y ↔ none = y :=
  ⟨fun ⟨_, _, same⟩ => same, fun same => ⟨_, areReferences_object, same⟩⟩

/-- The instances of a pattern that is there are there. -/
theorem hasInstanceOption_some {p : TypePattern} {y : Option JavaType} :
    HasInstanceOption (some p) y ↔ ∃ u, some u = y ∧ p.HasInstance u := by
  constructor
  · rintro ⟨ρ, references, rfl⟩
    exact ⟨_, rfl, ρ, references, rfl⟩
  · rintro ⟨_, rfl, ρ, references, rfl⟩
    exact ⟨ρ, references, rfl⟩

end Forms

/-! ### What a pattern accepts -/

mutual

/-- A pattern accepts the types that are its instances without quantifiers. -/
theorem accepts_iff : (p : TypePattern) → p.quantifiesSignatures = true → (t : JavaType) →
    t.quantifiesSignatures = true →
      (p.accepts t = true ↔ p.withoutQuantifiers.HasInstance t.withoutQuantifiers)
  | .primitive kind, _, t, ht => by
    rw [withoutQuantifiers, hasInstance_primitive]
    cases t with
    | generic vars signature =>
      obtain ⟨params, ret, bare⟩ := JavaType.exists_withoutQuantifiers_eq_method ht
      simp [accepts, bare]
    | _ => simp [accepts, JavaType.withoutQuantifiers]
  | .declared name args, hp, t, ht => by
    rw [withoutQuantifiers, hasInstance_declared]
    cases t with
    | declared targetName targetArgs =>
      have each := acceptsEach_iff args hp targetArgs ht
      simp [accepts, JavaType.withoutQuantifiers, each, and_assoc]
    | generic vars signature =>
      obtain ⟨params, ret, bare⟩ := JavaType.exists_withoutQuantifiers_eq_method ht
      simp [accepts, bare]
    | _ => simp [accepts, JavaType.withoutQuantifiers]
  | .array element, hp, t, ht => by
    rw [withoutQuantifiers, hasInstance_array]
    cases t with
    | array targetElement =>
      have inner := accepts_iff element hp targetElement ht
      simp [accepts, JavaType.withoutQuantifiers, inner]
    | generic vars signature =>
      obtain ⟨params, ret, bare⟩ := JavaType.exists_withoutQuantifiers_eq_method ht
      simp [accepts, bare]
    | _ => simp [accepts, JavaType.withoutQuantifiers]
  | .var name, _, t, ht => by
    rw [withoutQuantifiers, hasInstance_var, JavaType.isPrimitive_withoutQuantifiers ht, accepts,
      Bool.not_eq_true']
  | .wildcard kind bound, hp, t, ht => by
    rw [withoutQuantifiers, hasInstance_wildcard]
    cases t with
    | wildcard targetKind targetBound =>
      have inner := acceptsOption_iff bound hp targetBound ht
      simp [accepts, JavaType.withoutQuantifiers, inner, and_assoc]
    | generic vars signature =>
      obtain ⟨params, ret, bare⟩ := JavaType.exists_withoutQuantifiers_eq_method ht
      simp [accepts, bare]
    | _ => simp [accepts, JavaType.withoutQuantifiers]
  | .method params ret, hp, t, ht => by
    obtain ⟨hparams, hret⟩ := Bool.and_eq_true_iff.mp hp
    rw [withoutQuantifiers, hasInstance_method, ← JavaType.withoutQuantifiers_unquantified, accepts]
    have hbare := JavaType.quantifiesSignatures_unquantified t ht
    have front := JavaType.unquantified_ne_generic t
    -- all that is left of the target is the signature behind its quantifiers
    generalize t.unquantified = bare at hbare front ⊢
    cases bare with
    | method targetParams targetRet =>
      obtain ⟨htargets, htarget⟩ := Bool.and_eq_true_iff.mp hbare
      have each := acceptsEach_iff params hparams targetParams htargets
      have result := accepts_iff ret hret targetRet htarget
      simp [JavaType.withoutQuantifiers, each, result, and_assoc]
    | generic vars signature => exact absurd rfl (front vars signature)
    | _ => simp [JavaType.withoutQuantifiers]
  | .generic vars signature, hp, t, ht => by
    obtain ⟨front, inside⟩ := Bool.and_eq_true_iff.mp hp
    rw [withoutQuantifiers]
    cases t with
    | generic targetVars target =>
      rw [accepts, JavaType.withoutQuantifiers]
      exact accepts_iff signature inside target (Bool.and_eq_true_iff.mp ht).2
    | method params ret =>
      rw [accepts]
      exact accepts_iff signature inside (.method params ret) ht
    | _ =>
      obtain ⟨params, ret, bare⟩ := exists_withoutQuantifiers_eq_method signature front
      simp [accepts, bare, hasInstance_method, JavaType.withoutQuantifiers]

theorem acceptsEach_iff : (ps : List TypePattern) → quantifiesSignaturesEach ps = true →
    (ts : List JavaType) → JavaType.quantifiesSignaturesEach ts = true →
      (acceptsEach ps ts = true ↔
        HaveInstances (withoutQuantifiersEach ps) (JavaType.withoutQuantifiersEach ts))
  | [], _, ts, _ => by
    rw [withoutQuantifiersEach, haveInstances_nil]
    cases ts <;> simp [acceptsEach, JavaType.withoutQuantifiersEach]
  | p :: ps, hps, ts, hts => by
    obtain ⟨hp, hps⟩ := Bool.and_eq_true_iff.mp hps
    rw [withoutQuantifiersEach, haveInstances_cons]
    cases ts with
    | nil => simp [acceptsEach, JavaType.withoutQuantifiersEach]
    | cons t ts =>
      obtain ⟨ht, hts⟩ := Bool.and_eq_true_iff.mp hts
      have here := accepts_iff p hp t ht
      have others := acceptsEach_iff ps hps ts hts
      simp [acceptsEach, JavaType.withoutQuantifiersEach, here, others, and_assoc]

theorem acceptsOption_iff : (x : Option TypePattern) → quantifiesSignaturesOption x = true →
    (y : Option JavaType) → JavaType.quantifiesSignaturesOption y = true →
      (acceptsOption x y = true ↔
        HasInstanceOption (withoutQuantifiersOption x) (JavaType.withoutQuantifiersOption y))
  | none, _, y, _ => by
    rw [withoutQuantifiersOption, hasInstanceOption_none]
    cases y <;> simp [acceptsOption, JavaType.withoutQuantifiersOption]
  | some p, hp, y, hy => by
    rw [withoutQuantifiersOption, hasInstanceOption_some]
    cases y with
    | none => simp [acceptsOption, JavaType.withoutQuantifiersOption]
    | some t =>
      have here := accepts_iff p hp t hy
      simp [acceptsOption, JavaType.withoutQuantifiersOption, here]

end

/-- Matching a type succeeds exactly if, without quantifiers, the type is the pattern with a type
that is not primitive at each place of a type parameter; and then the bindings are passed on as they
were. -/
theorem unify_eq_some_iff {p : TypePattern} {t : JavaType} (hp : p.quantifiesSignatures = true)
    (ht : t.quantifiesSignatures = true) (b found : Bindings) :
    p.unify t b = some found ↔
      found = b ∧ ∃ ρ : Place → JavaType, (∀ place, (ρ place).isPrimitive = false) ∧
        p.withoutQuantifiers.instantiate ρ = t.withoutQuantifiers := by
  rw [unify_eq]
  split
  · rename_i accepted
    have fits := (accepts_iff p hp t ht).mp accepted
    exact ⟨fun same => ⟨(Option.some.inj same).symm, fits⟩, fun h => congrArg some h.1.symm⟩
  · rename_i refused
    refine ⟨fun h => absurd h (by simp), fun ⟨_, fits⟩ => ?_⟩
    exact absurd ((accepts_iff p hp t ht).mpr fits) refused

/-- A quantified signature on maps matches one without quantifiers; the two places of its one type
parameter have different types in it. -/
theorem unify_eq_some_iff_map :
    (generic ["E"] (method [ofClass "java.lang.String"]
      (declared "java.util.Map" [.var "E", .var "E"]))).unify
        (.method [.string] (.declared "java.util.Map"
          [.ofClass "java.lang.Integer", .array (.primitive .int)])) .empty = some .empty := by
  refine (unify_eq_some_iff (by decide) (by decide) _ _).mpr ⟨rfl, fun place =>
    if place = [true, false] then .ofClass "java.lang.Integer" else .array (.primitive .int),
    fun place => ?_, rfl⟩
  dsimp only
  split
  · rfl
  · rfl

end TypePattern

end JavaRefactor
