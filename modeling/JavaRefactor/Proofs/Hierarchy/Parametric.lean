import JavaRefactor.Proofs.Hierarchy.CoreClasses
import JavaRefactor.Proofs.Hierarchy.RelatedViews
import JavaRefactor.Proofs.Hierarchy.Rules
import JavaRefactor.Proofs.JavaType.Composition

/-!
# Parametric tables

In a parametric table, declared supertypes are written in terms of the parameters of the class that
declares them.  The views of what a substitution makes of a class type are then what it makes of
the views (`ClassTable.Parametric.asSuper?_substitute`), and every chain of supertypes is an
instance of one from the class applied to its own parameters
(`ClassTable.Parametric.exists_chain_selfType`).  So chains from a type to a class all end in one
type if they do for the class applied to its parameters (`ClassTable.Parametric.eq_of_chains`), and
views compose (`ClassTable.asSuper?_functorial`).  Views as the root class compose only if it has no
supertypes, as it is seen from all classes and reached from few (`ClassTable.not_asSuper?_trans`).
-/

namespace JavaRefactor

namespace ClassTable

/-- A class type is raw or has all its arguments, as far as the table has its class. -/
def Fits (t : ClassTable) (name : String) (args : List JavaType) : Prop :=
  ∀ d, t.find? name = some d → args = [] ∨ args.length = d.typeParams.length

/-- A class type has all its arguments, as far as the table has its class. -/
def IsComplete (t : ClassTable) (name : String) (args : List JavaType) : Prop :=
  ∀ d, t.find? name = some d → args.length = d.typeParams.length

/-- Declared supertypes are class types that fit, mention no variables but the parameters of the
class that declares them, and hold no quantified signature. -/
structure Parametric (t : ClassTable) : Prop where
  fits : ∀ name d, t.find? name = some d → ∀ s ∈ d.supertypes,
    ∃ sup us, s = .declared sup us ∧ t.Fits sup us
  own : ∀ name d, t.find? name = some d → ∀ s ∈ d.supertypes, ∀ x upper lower,
    s.HasPart (.var x upper lower) → x ∈ d.typeParams
  plain : ∀ name d, t.find? name = some d → ∀ s ∈ d.supertypes, ∀ vars signature,
    ¬ s.HasPart (.generic vars signature)

/-- All chains of supertypes from one class, applied to its own parameters, to another give the same
arguments. -/
def ChainsAgree (t : ClassTable) (name target : String) : Prop :=
  ∀ d, t.find? name = some d → ∀ vs ws, t.Chain d.selfType (.declared target vs) →
    t.Chain d.selfType (.declared target ws) → vs = ws

/-- A class type that fits, and what a substitution makes of it. -/
def Specializes (t : ClassTable) (m : Substitution) (s s' : JavaType) : Prop :=
  ∃ name args, s = .declared name args ∧ t.Fits name args ∧ s' = s.substitute m

variable {t : ClassTable}

/-- A class type with all its arguments fits. -/
theorem IsComplete.fits {name : String} {args : List JavaType} (h : t.IsComplete name args) :
    t.Fits name args :=
  fun d found => .inr (h d found)

/-- A class type that fits and is not raw has all its arguments. -/
theorem Fits.length_eq {name : String} {args : List JavaType} {d : ClassDecl}
    (fits : t.Fits name args) (found : t.find? name = some d) (raw : d.isRaw args = false) :
    args.length = d.typeParams.length := by
  rcases fits d found with rfl | full
  · have simple : d.typeParams = [] := by
      simpa [ClassDecl.isRaw] using raw
    rw [simple]
    rfl
  · exact full

namespace Parametric

variable (parametric : t.Parametric)
include parametric

/-- In a parametric table, declared supertypes are class types. -/
theorem classSupertypes : t.ClassSupertypes := by
  intro name d found s hs
  obtain ⟨sup, us, rfl, -⟩ := parametric.fits name d found s hs
  exact ⟨sup, us, rfl⟩

/-- Substituting twice in a declared supertype is substituting once, if all parameters are
replaced. -/
theorem substitute_supertype {σ τ m : Substitution} {name : String} {d : ClassDecl}
    (found : t.find? name = some d) {s : JavaType} (hs : s ∈ d.supertypes)
    (replaced : ∀ x ∈ d.typeParams,
      ∃ a b, σ.lookup x = some a ∧ τ.lookup x = some b ∧ b = a.substitute m) :
    (s.substitute σ).substitute m = s.substitute τ := by
  refine JavaType.substitute_substitute (P := s.HasPart) ?_ ?_ ?_ s .refl
  · exact fun _ inside _ hx => inside.tail hx
  · exact parametric.plain name d found s hs
  · intro x upper lower inside
    exact replaced x (parametric.own name d found s hs x upper lower inside)

/-- A declared supertype fits, whatever arguments it is seen with. -/
theorem fits_viewSupertype {name : String} {d : ClassDecl} (found : t.find? name = some d)
    (args : List JavaType) {s : JavaType} (hs : s ∈ d.supertypes) :
    ∃ sup vs, d.viewSupertype args s = .declared sup vs ∧ t.Fits sup vs := by
  obtain ⟨sup, us, rfl, fits⟩ := parametric.fits name d found s hs
  unfold ClassDecl.viewSupertype
  split
  · exact ⟨sup, [], rfl, fun _ _ => .inl rfl⟩
  · refine ⟨sup, _, rfl, fun e here => ?_⟩
    rcases fits e here with rfl | full
    · exact .inl rfl
    · refine .inr ?_
      rw [JavaType.substituteEach_eq_map, List.length_map, full]

/-- What is seen from a class type is substituted with its arguments. -/
theorem viewSupertype_substitute (m : Substitution) {name : String} {d : ClassDecl}
    (found : t.find? name = some d) {args : List JavaType} (fits : t.Fits name args) {s : JavaType}
    (hs : s ∈ d.supertypes) :
    d.viewSupertype (JavaType.substituteEach m args) s = (d.viewSupertype args s).substitute m := by
  have raw : d.isRaw (JavaType.substituteEach m args) = d.isRaw args := by
    rw [JavaType.substituteEach_eq_map, ClassDecl.isRaw, ClassDecl.isRaw, List.isEmpty_map]
  unfold ClassDecl.viewSupertype
  rw [raw]
  cases seen : d.isRaw args with
  | true =>
    obtain ⟨sup, us, rfl, -⟩ := parametric.fits name d found s hs
    rfl
  | false =>
    have full := fits.length_eq found seen
    have related : List.Forall₂ (fun a b => b = a.substitute m) args
        (JavaType.substituteEach m args) := by
      rw [JavaType.substituteEach_eq_map]
      exact List.forall₂_map_right_iff.mpr (List.forall₂_same.mpr fun _ _ => rfl)
    exact (parametric.substitute_supertype found hs fun x hx =>
      Substitution.exists_related full related hx).symm

/-- Supertypes are specialized as their types are. -/
theorem simulates (m : Substitution) : t.Simulates (t.Specializes m) where
  sameClass := by
    rintro _ _ ⟨name, args, rfl, -, rfl⟩
    exact ⟨name, args, _, rfl, rfl⟩
  root := ⟨JavaType.objectName, [], rfl, fun _ _ => .inl rfl, rfl⟩
  supertypes := by
    rintro name as bs d found ⟨_, _, same, fits, special⟩ s hs
    obtain ⟨rfl, rfl⟩ := JavaType.declared.inj same
    obtain ⟨-, rfl⟩ := JavaType.declared.inj special
    obtain ⟨sup, vs, seen, above⟩ := parametric.fits_viewSupertype found as hs
    exact ⟨sup, vs, seen, above, parametric.viewSupertype_substitute m found fits hs⟩

/-! ### Views of what a substitution makes -/

/-- Views of class types that fit commute with substitution. -/
theorem asSuper?_substitute (acyclic : t.Acyclic) {name : String} {args : List JavaType}
    (fits : t.Fits name args) (m : Substitution) (target : String) :
    t.asSuper? ((JavaType.declared name args).substitute m) target =
      (t.asSuper? (.declared name args) target).map (JavaType.substitute m) := by
  have supers := parametric.classSupertypes
  have ends := acyclic.asSuperWithin_isSome supers (Nat.lt_succ_self t.size) name args target
  obtain ⟨view, found⟩ := Option.isSome_iff_exists.mp ends
  have both := (parametric.simulates m).rel_asSuperWithin
    ⟨name, args, rfl, fits, rfl⟩ (t.size + 1) target
  rw [asSuper?_eq acyclic supers found]
  rw [found] at both
  generalize special : t.asSuperWithin (t.size + 1)
    ((JavaType.declared name args).substitute m) target = answer at both
  obtain ⟨same⟩ := both
  rw [JavaType.substitute] at special ⊢
  rw [asSuper?_eq acyclic supers special]
  cases same with
  | none => rfl
  | some here =>
    obtain ⟨_, _, -, -, rfl⟩ := here
    rfl

/-! ### Chains -/

/-- A proper chain from a class type with all its arguments is an instance of a chain from the class
applied to its parameters. -/
theorem exists_chain_selfType {name : String} {d : ClassDecl} (found : t.find? name = some d)
    {args : List JavaType} (full : args.length = d.typeParams.length) {u v : JavaType}
    (step : t.DirectSupertype (.declared name args) u) (chain : t.Chain u v) :
    ∃ w, t.Chain d.selfType w ∧ t.Specializes (.ofParameters d.typeParams args) w v := by
  obtain ⟨found', hs⟩ := step
  rename_i d' s
  obtain rfl := Option.some.inj (found.symm.trans found')
  have generic : (d.typeParams.map JavaType.freeVariable).length = d.typeParams.length :=
    List.length_map _
  have first : t.DirectSupertype d.selfType
      (d.viewSupertype (d.typeParams.map JavaType.freeVariable) s) := by
    unfold ClassDecl.selfType
    rw [name_of_find? found]
    exact .declared found hs
  obtain ⟨sup, vs, seen, fits⟩ :=
    parametric.fits_viewSupertype found (d.typeParams.map JavaType.freeVariable) hs
  have special : d.viewSupertype args s =
      (d.viewSupertype (d.typeParams.map JavaType.freeVariable) s).substitute
        (.ofParameters d.typeParams args) := by
    unfold ClassDecl.viewSupertype
    rw [ClassDecl.isRaw_eq_false full, ClassDecl.isRaw_eq_false generic]
    refine (parametric.substitute_supertype found hs fun x hx => ?_).symm
    obtain ⟨a, b, whole, here, same⟩ := Substitution.exists_substitute_freeVariable full hx
    exact ⟨b, a, here, whole, same⟩
  obtain ⟨w, way, related⟩ := (parametric.simulates _).exists_chain ⟨sup, vs, seen, fits, special⟩
    chain
  exact ⟨w, .head first way, related⟩

/-- All chains from a type with all its arguments to a class end in the same type, if they do so for
the class of the type. -/
theorem eq_of_chains (acyclic : t.Acyclic) {name target : String} {args vs ws : List JavaType}
    (complete : t.IsComplete name args) (agree : t.ChainsAgree name target)
    (left : t.Chain (.declared name args) (.declared target vs))
    (right : t.Chain (.declared name args) (.declared target ws)) : vs = ws := by
  have no_cycle {u : JavaType} {us : List JavaType}
      (step : t.DirectSupertype (.declared name args) u)
      (chain : t.Chain u (.declared name us)) : False :=
    acyclic name (Chain.transGen parametric.classSupertypes step chain)
  rcases Relation.ReflTransGen.cases_head left with same | ⟨u, step, chain⟩
  · obtain ⟨rfl, rfl⟩ := JavaType.declared.inj same
    rcases Relation.ReflTransGen.cases_head right with same | ⟨u, step, chain⟩
    · exact (JavaType.declared.inj same).2
    · exact (no_cycle step chain).elim
  · rcases Relation.ReflTransGen.cases_head right with same | ⟨u', step', chain'⟩
    · obtain ⟨rfl, rfl⟩ := JavaType.declared.inj same
      exact (no_cycle step chain).elim
    · have found : ∃ d, t.find? name = some d := by
        obtain ⟨found, -⟩ := step
        exact ⟨_, found⟩
      obtain ⟨d, found⟩ := found
      obtain ⟨_, generic, _, gs, rfl, -, special⟩ :=
        parametric.exists_chain_selfType found (complete d found) step chain
      obtain ⟨_, generic', _, gs', rfl, -, special'⟩ :=
        parametric.exists_chain_selfType found (complete d found) step' chain'
      obtain ⟨rfl, rfl⟩ := JavaType.declared.inj special
      obtain ⟨rfl, rfl⟩ := JavaType.declared.inj special'
      rw [agree d found gs gs' generic generic']

end Parametric

/-! ### Regular tables -/

/-- What an admitted supertype is made of is the supertype, a parameter, or ground. -/
theorem cases_of_hasPart {arity : String → Nat} {d : ClassDecl} {s x : JavaType}
    (admitted : d.admits arity s = true) (inside : s.HasPart x) :
    x = s ∨ (∃ name upper lower, x = .var name upper lower ∧ name ∈ d.typeParams) ∨
      ∃ argument, x.isGround arity argument = true := by
  obtain ⟨sup, args, rfl, -, each⟩ := ClassDecl.admits_iff.mp admitted
  rcases Relation.ReflTransGen.cases_head inside with rfl | ⟨arg, harg, inner⟩
  · exact .inl rfl
  · rcases each arg harg with ⟨name, upper, lower, rfl, own⟩ | rigid
    · rcases Relation.ReflTransGen.cases_head inner with rfl | ⟨_, part, -⟩
      · exact .inr (.inl ⟨name, upper, lower, rfl, own⟩)
      · exact absurd part List.not_mem_nil
    · have ground : arg.isGround arity true = true := JavaType.isGround_of_isRigid arg rigid
      exact .inr (.inr (JavaType.exists_isGround_of_hasPart ground inner))

/-- A regular table is parametric. -/
theorem Regular.parametric {arity : String → Nat} (regular : t.Regular arity) : t.Parametric where
  fits name d found s hs := by
    obtain ⟨sup, us, rfl, length, -⟩ :=
      ClassDecl.admits_iff.mp (regular.supertypes name d found s hs)
    exact ⟨sup, us, rfl, fun e here => .inr (length.trans (regular.params sup e here))⟩
  own name d found s hs x upper lower inside := by
    have admitted := regular.supertypes name d found s hs
    rcases cases_of_hasPart admitted inside with rfl | ⟨_, _, _, same, own⟩ | ⟨_, ground⟩
    · exact absurd admitted Bool.false_ne_true
    · obtain ⟨rfl, -, -⟩ := JavaType.var.inj same
      exact own
    · exact absurd ground Bool.false_ne_true
  plain name d found s hs vars signature inside := by
    have admitted := regular.supertypes name d found s hs
    rcases cases_of_hasPart admitted inside with rfl | ⟨_, _, _, same, -⟩ | ⟨_, ground⟩
    · exact absurd admitted Bool.false_ne_true
    · exact JavaType.noConfusion same
    · exact absurd ground Bool.false_ne_true

/-- In a regular table, all chains from a type with all its arguments to a class end in the same
type. -/
theorem Regular.eq_of_chains {arity : String → Nat} (regular : t.Regular arity) {name sup : String}
    {args vs ws : List JavaType} (full : args.length = arity name)
    (left : t.Chain (.declared name args) (.declared sup vs))
    (right : t.Chain (.declared name args) (.declared sup ws)) : vs = ws := by
  have complete : t.IsComplete name args :=
    fun d found => full.trans (regular.params name d found)
  exact regular.parametric.eq_of_chains regular.acyclic complete
    (fun d found => regular.coherent name d found sup) left right

/-! ### Views of views -/

namespace Parametric

variable (parametric : t.Parametric)
include parametric

/-- Views as classes other than the root class compose: the view of a view is the end of a chain, as
the view itself is. -/
theorem asSuper?_trans_of_proper (acyclic : t.Acyclic) {name middle target : String}
    {args : List JavaType} (complete : t.IsComplete name args) (agree : t.ChainsAgree name target)
    (proper : middle ≠ JavaType.objectName) (proper' : target ≠ JavaType.objectName)
    {b : JavaType} (seen : t.asSuper? (.declared name args) middle = some b)
    (way : t.Inherits middle target) :
    t.asSuper? b target = t.asSuper? (.declared name args) target := by
  have supers := parametric.classSupertypes
  obtain ⟨bs, rfl, chain⟩ := exists_chain_of_asSuper? supers proper seen
  obtain ⟨_, _, same, first⟩ := chain.inherits supers
  obtain ⟨rfl, rfl⟩ := JavaType.declared.inj same
  obtain ⟨v, left, -⟩ := exists_asSuper? acyclic supers way bs
  obtain ⟨w, right, -⟩ := exists_asSuper? acyclic supers (first.trans way) args
  obtain ⟨vs, rfl, above⟩ := exists_chain_of_asSuper? supers proper' left
  obtain ⟨ws, rfl, whole⟩ := exists_chain_of_asSuper? supers proper' right
  rw [left, right, parametric.eq_of_chains acyclic complete agree (chain.trans above) whole]

/-- Views compose, unless the one in the middle is a view as a root class with supertypes. -/
theorem asSuper?_trans (acyclic : t.Acyclic) {name middle target : String}
    {args : List JavaType} (complete : t.IsComplete name args) (agree : t.ChainsAgree name target)
    (root : middle = JavaType.objectName →
      name = JavaType.objectName ∨ t.supertypeNames JavaType.objectName = [])
    {b : JavaType} (seen : t.asSuper? (.declared name args) middle = some b)
    (way : t.Inherits middle target) :
    t.asSuper? b target = t.asSuper? (.declared name args) target := by
  have supers := parametric.classSupertypes
  by_cases here : name = middle
  · subst here
    rw [asSuper?_self acyclic supers] at seen
    rw [Option.some.inj seen]
  by_cases top : middle = JavaType.objectName
  · subst top
    -- nothing is above the root class, and its only view is the one that is asked for
    have bare := (root rfl).resolve_left here
    rcases Relation.ReflTransGen.cases_head way with rfl | ⟨sup, step, -⟩
    · rw [seen]
      rw [asSuper?_root acyclic supers here] at seen
      obtain rfl := Option.some.inj seen
      exact asSuper?_self acyclic supers _ _
    · exact absurd step (by simp [Extends, bare])
  by_cases last : target = JavaType.objectName
  · subst last
    obtain ⟨bs, rfl, chain⟩ := exists_chain_of_asSuper? supers top seen
    obtain ⟨_, _, same, first⟩ := chain.inherits supers
    obtain ⟨rfl, rfl⟩ := JavaType.declared.inj same
    have below : name ≠ JavaType.objectName := by
      rintro rfl
      rcases Relation.ReflTransGen.cases_head first with same | ⟨sup, step, rest⟩
      · exact here same
      · exact acyclic _ (.head' step (rest.trans way))
    rw [asSuper?_root acyclic supers top, asSuper?_root acyclic supers below]
  · exact parametric.asSuper?_trans_of_proper acyclic complete agree top last seen way

end Parametric

/-- In an acyclic parametric table, views of class types with all their arguments commute with
substitution, and compose if chains of supertypes agree: the view of a view is the view of the type.
The view in the middle may be one as the root class only if that is where it starts or has no
supertypes. -/
theorem asSuper?_functorial (acyclic : t.Acyclic) (parametric : t.Parametric) {name : String}
    {args : List JavaType} (complete : t.IsComplete name args) :
    (∀ (m : Substitution) (target : String),
      t.asSuper? ((JavaType.declared name args).substitute m) target =
        (t.asSuper? (.declared name args) target).map (JavaType.substitute m)) ∧
    ∀ (middle target : String) (b : JavaType), t.ChainsAgree name target →
      (middle = JavaType.objectName →
        name = JavaType.objectName ∨ t.supertypeNames JavaType.objectName = []) →
      t.asSuper? (.declared name args) middle = some b → t.Inherits middle target →
      t.asSuper? b target = t.asSuper? (.declared name args) target :=
  ⟨fun m target => parametric.asSuper?_substitute acyclic complete.fits m target,
    fun _ _ _ agree root seen way => parametric.asSuper?_trans acyclic complete agree root seen way⟩

/-- An array list of integers is an iterable of integers, as an array list of `X` is an iterable of
`X`; and the list that an array list of `X` is has the same view. -/
theorem asSuper?_functorial_core :
    core.asSuper? (.declared "java.util.ArrayList" [.ofClass "java.lang.Integer"])
        "java.lang.Iterable" =
      some (.declared "java.lang.Iterable" [.ofClass "java.lang.Integer"]) ∧
    core.asSuper? (.declared "java.util.List" [.freeVariable "X"]) "java.lang.Iterable" =
      some (.declared "java.lang.Iterable" [.freeVariable "X"]) := by
  have complete : core.IsComplete "java.util.ArrayList" [.freeVariable "X"] := by
    intro d found
    rw [show core.find? "java.util.ArrayList" = some _ from rfl] at found
    obtain rfl := Option.some.inj found
    rfl
  have whole : core.asSuper? (.declared "java.util.ArrayList" [.freeVariable "X"])
      "java.lang.Iterable" = some (.declared "java.lang.Iterable" [.freeVariable "X"]) := by
    decide +kernel
  obtain ⟨commutes, composes⟩ :=
    asSuper?_functorial regular_core.acyclic regular_core.parametric complete
  refine ⟨?_, ?_⟩
  · exact (commutes [("X", .ofClass "java.lang.Integer")] "java.lang.Iterable").trans
      (congrArg _ whole)
  · refine (composes "java.util.List" "java.lang.Iterable" _ ?_ ?_ ?_ ?_).trans whole
    · exact fun d found vs ws => regular_core.coherent _ d found _ vs ws
    · exact fun root => absurd root (by decide)
    · decide +kernel
    · have first : "java.util.Collection" ∈ core.supertypeNames "java.util.List" := by
        decide +kernel
      have second : "java.lang.Iterable" ∈ core.supertypeNames "java.util.Collection" := by
        decide +kernel
      exact .head first (.single second)

/-! ### A root class with supertypes -/

/-- A table is parametric if no declared supertype has arguments. -/
theorem parametric_of_bare
    (bare : ∀ d ∈ t.classes, ∀ s ∈ d.supertypes, ∃ sup, s = .ofClass sup) : t.Parametric := by
  have apart {d : ClassDecl} (hd : d ∈ t.classes) {s : JavaType} (hs : s ∈ d.supertypes)
      {x : JavaType} (inside : s.HasPart x) : ∃ sup, x = .ofClass sup := by
    obtain ⟨sup, rfl⟩ := bare d hd s hs
    rcases Relation.ReflTransGen.cases_head inside with rfl | ⟨_, part, -⟩
    · exact ⟨sup, rfl⟩
    · exact absurd part List.not_mem_nil
  refine ⟨fun name d found s hs => ?_, fun name d found s hs x upper lower inside => ?_,
    fun name d found s hs vars signature inside => ?_⟩
  · obtain ⟨sup, rfl⟩ := bare d (mem_of_find? found) s hs
    exact ⟨sup, [], rfl, fun _ _ => .inl rfl⟩
  · obtain ⟨sup, same⟩ := apart (mem_of_find? found) hs inside
    exact JavaType.noConfusion same
  · obtain ⟨sup, same⟩ := apart (mem_of_find? found) hs inside
    exact JavaType.noConfusion same

/-- Chains agree if no class has parameters and no declared supertype has arguments. -/
theorem chainsAgree_of_bare
    (bare : ∀ d ∈ t.classes, ∀ s ∈ d.supertypes, ∃ sup, s = .ofClass sup)
    (simple : ∀ d ∈ t.classes, d.typeParams = []) (name target : String) :
    t.ChainsAgree name target := by
  have reached {s v : JavaType} (plain : ∃ c, s = .ofClass c) (chain : t.Chain s v) :
      ∃ c, v = .ofClass c := by
    induction chain with
    | refl => exact plain
    | tail _ step _ =>
      obtain ⟨found, hs⟩ := step
      obtain ⟨sup, rfl⟩ := bare _ (mem_of_find? found) _ hs
      exact ⟨sup, by unfold ClassDecl.viewSupertype; split <;> rfl⟩
  intro d found vs ws left right
  have start : ∃ c, d.selfType = .ofClass c := by
    refine ⟨d.name, ?_⟩
    rw [ClassDecl.selfType, simple d (mem_of_find? found)]
    rfl
  obtain ⟨_, first⟩ := reached start left
  obtain ⟨_, second⟩ := reached start right
  rw [(JavaType.declared.inj first).2, (JavaType.declared.inj second).2]

/-- A table in which the root class has a supertype, and another class has none. -/
def raisedRoot : ClassTable :=
  ⟨[⟨JavaType.objectName, [], [.ofClass "Top"], false⟩, ⟨"Top", [], [], true⟩,
    ⟨"A", [], [], false⟩]⟩

/-- No supertype in the table has arguments. -/
theorem bare_raisedRoot :
    ∀ d ∈ raisedRoot.classes, ∀ s ∈ d.supertypes, ∃ sup, s = .ofClass sup := by
  simp [raisedRoot]

/-- Where the root class has a supertype, views do not compose: every class is seen as the root
class, but not every class as the supertype of it. -/
theorem not_asSuper?_trans :
    raisedRoot.Acyclic ∧ raisedRoot.Parametric ∧ raisedRoot.IsComplete "A" [] ∧
      (∀ name target, raisedRoot.ChainsAgree name target) ∧
      raisedRoot.asSuper? (.ofClass "A") JavaType.objectName = some .object ∧
      raisedRoot.Inherits JavaType.objectName "Top" ∧
      raisedRoot.asSuper? .object "Top" = some (.ofClass "Top") ∧
      raisedRoot.asSuper? (.ofClass "A") "Top" = none := by
  refine ⟨?_, parametric_of_bare bare_raisedRoot, ?_, ?_, ?_, .single ?_, ?_, ?_⟩
  · exact acyclic_of_rank (fun name => if name = "Top" then 0 else 1) (by
      simp [raisedRoot, JavaType.className?, JavaType.objectName])
  · intro d found
    rw [show raisedRoot.find? "A" = some _ from rfl] at found
    obtain rfl := Option.some.inj found
    rfl
  · exact chainsAgree_of_bare bare_raisedRoot (by simp [raisedRoot])
  · decide +kernel
  · show "Top" ∈ raisedRoot.supertypeNames JavaType.objectName
    decide
  · decide +kernel
  · decide +kernel

end ClassTable

end JavaRefactor
