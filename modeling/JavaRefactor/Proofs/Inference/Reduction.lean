import JavaRefactor.Proofs.Hierarchy.CoreClasses
import JavaRefactor.Proofs.Inference.Comparison
import JavaRefactor.Proofs.Inference.Equality

/-!
# Reduction records necessary bounds

Let a substitution assign types to the free variables of some formal types, such that every actual
type is assignable to its formal type.  Then reduction succeeds, and the substitution satisfies all
bounds that it records (`InferenceContext.exists_bounds_of_isAssignable`).

This is so as long as reduction stays in step with subtyping.  There are comparisons that it
decides otherwise than subtyping does: it takes an array below an actual type for one above it, it
does not look into the bounds of wildcards and of variables, and it takes the root class for a class
with arguments.  The theorem is about arguments that lead to none of them (`Comparison.Faithful`).

The relation of two class types is reduced along the view of the one below.  If that is the actual
type, its arguments are compared with those of the formal type, and the induction goes on with the
bounds of wildcards.  If it is the formal type, the arguments of its view have to be the actual
ones, and they follow those of the view that the substituted type has
(`InferenceContext.boundsHold_reduceAbove`).
-/

namespace JavaRefactor

namespace InferenceContext

variable {c : InferenceContext} {S : Substitution} {conversion : Conversion} {f a : JavaType}

/-! ### Type arguments -/

/-- What a wildcard with an upper bound records for an argument is about a type below it. -/
theorem compareArguments_upper {x : JavaType} (about : a.IsAbout .upper x) :
    c.compareArguments (.wildcard .upper (some f)) a = c.reduce .subtype f x := by
  unfold compareArguments
  rcases about with rfl | ⟨rfl, plain⟩
  · simp only [reduceWildcard]
  · cases a with
    | wildcard _ _ => exact absurd plain (by simp [JavaType.isWildcard])
    | _ => simp only [reduceWildcard]

/-- What a wildcard with a lower bound records for an argument is about a type above it. -/
theorem compareArguments_lower {x : JavaType} (about : a.IsAbout .lower x) :
    c.compareArguments (.wildcard .lower (some f)) a = c.reduce .supertype f x := by
  unfold compareArguments
  rcases about with rfl | ⟨rfl, plain⟩
  · simp only [reduceWildcard]
  · cases a with
    | wildcard _ _ => exact absurd plain (by simp [JavaType.isWildcard])
    | _ => simp only [reduceWildcard]

/-- A wildcard without a bound records nothing. -/
theorem compareArguments_unbounded {kind : WildcardKind} {bound : Option JavaType}
    (free : kind = .unbounded ∨ bound = none) :
    c.compareArguments (.wildcard kind bound) a = .ok [] := by
  unfold compareArguments
  rcases free with rfl | rfl
  · cases bound with
    | none => simp only [reduceWildcard]
    | some _ => cases a <;> simp only [reduceWildcard]
  · simp only [reduceWildcard]

/-- An argument that is no wildcard has to be the actual one, unless that is a wildcard. -/
theorem compareArguments_plain (plain : f.isWildcard = false)
    (equal : BoundsHold c.table S (c.reduceEqual f a)) :
    BoundsHold c.table S (c.compareArguments f a) := by
  cases f with
  | wildcard _ _ => exact absurd plain (by simp [JavaType.isWildcard])
  | _ =>
    cases a with
    | wildcard _ _ => exact .nil
    | _ => exact equal

/-- If bounds hold for each argument then they do for all. -/
theorem boundsHold_reduceArguments {fs as : List JavaType}
    (h : ∀ p ∈ fs.zip as, BoundsHold c.table S (c.compareArguments p.1 p.2)) :
    BoundsHold c.table S (c.reduceArguments fs as) := by
  induction fs generalizing as with
  | nil =>
    rw [reduceArguments_nil (.inl rfl)]
    exact .nil
  | cons f fs ih =>
    cases as with
    | nil =>
      rw [reduceArguments_nil (.inr rfl)]
      exact .nil
    | cons a as =>
      obtain ⟨here, others⟩ := List.forall_mem_cons.mp h
      rw [reduceArguments_cons]
      exact .append here (ih others)

/-! ### What is assigned -/

variable (assigns : S.Assigns c.free)
include assigns

/-- A type in which no free variable occurs stays the same. -/
theorem substitute_of_occurs (apart : ∀ v ∈ c.free, f.occurs v = false) : f.substitute S = f := by
  refine JavaType.substitute_eq_self f fun entry hentry => apart _ ?_
  refine (assigns.domain entry.1).mp ?_
  by_contra missing
  rw [Bool.not_eq_true, Option.isSome_eq_false_iff, Option.isNone_iff_eq_none,
    List.lookup_eq_none_iff] at missing
  exact absurd (missing entry hentry) (by simp)

/-- A formal type that mentions a free variable does not become primitive. -/
theorem isPrimitive_substitute (mentioned : f.mentions c.free = true) :
    (f.substitute S).isPrimitive = false := by
  cases f with
  | primitive _ => exact absurd mentioned Bool.false_ne_true
  | var name upper lower =>
    have free : name ∈ c.free := List.contains_iff_mem.mp mentioned
    obtain ⟨x, found⟩ := Option.isSome_iff_exists.mp ((assigns.domain name).mpr free)
    have reference := assigns.reference name x found
    rw [JavaType.substitute, found]
    cases x with
    | primitive p =>
      cases p with
      | null => rfl
      | _ => exact absurd reference Bool.false_ne_true
    | _ => rfl
  | _ => rfl

/-- A formal type that is no wildcard does not become one. -/
theorem isWildcard_substitute (plain : f.isWildcard = false) :
    (f.substitute S).isWildcard = false := by
  cases f with
  | wildcard _ _ => exact absurd plain (by simp [JavaType.isWildcard])
  | var name upper lower =>
    rw [JavaType.substitute]
    cases found : S.lookup name with
    | none => rfl
    | some x => exact assigns.plain name x found
  | _ => rfl

/-! ### Class types below and above -/

/-- Bounds hold for an argument that the formal argument contains once it is substituted, if they
hold for the types that the two are about. -/
theorem boundsHold_argument {n : Nat}
    (contains : containsArgument (c.table.subtypeWithin true n) (f.substitute S) a = some true)
    (upper : ∀ b x, f = .wildcard .upper (some b) → a.IsAbout .upper x →
      c.admits .subtype (b.substitute S) x = true → BoundsHold c.table S (c.reduce .subtype b x))
    (lower : ∀ b x, f = .wildcard .lower (some b) → a.IsAbout .lower x →
      c.admits .supertype (b.substitute S) x = true →
        BoundsHold c.table S (c.reduce .supertype b x)) :
    BoundsHold c.table S (c.compareArguments f a) := by
  cases plain : f.isWildcard with
  | false =>
    -- without a wildcard the two are the same, and equating them asks for nothing else
    refine compareArguments_plain plain ?_
    refine (follows_substitute assigns [] f).equal a (fun _ h => absurd h List.not_mem_nil) ?_
    rw [containsArgument_of_plain (isWildcard_substitute assigns plain)] at contains
    exact Option.some.inj contains
  | true =>
    cases f with
    | wildcard kind bound =>
      cases bound with
      | none =>
        rw [compareArguments_unbounded (.inr rfl)]
        exact .nil
      | some b =>
        rw [JavaType.substitute, JavaType.substituteOption] at contains
        cases kind with
        | unbounded =>
          rw [compareArguments_unbounded (.inl rfl)]
          exact .nil
        | upper =>
          obtain ⟨x, about, below⟩ := containsArgument_upper_iff.mp contains
          rw [compareArguments_upper about]
          exact upper b x rfl about (ClassTable.isSubtypeIn_iff.mpr ⟨n, below⟩)
        | lower =>
          obtain ⟨x, about, above⟩ := containsArgument_lower_iff.mp contains
          rw [compareArguments_lower about]
          exact lower b x rfl about (ClassTable.isSubtypeIn_iff.mpr ⟨n, above⟩)
    | _ => exact absurd plain (by simp [JavaType.isWildcard])

omit assigns in
/-- Bounds hold for the arguments of a view and of a class above if they hold for each pair of them
that is compared. -/
theorem boundsHold_foldlM {ps : List (JavaType × JavaType)} {bounds : List Bound}
    (before : ∀ b ∈ bounds, b.Holds c.table S)
    (h : ∀ p ∈ ps, p.2.isWildcard = false → BoundsHold c.table S (c.reduceEqual p.1 p.2)) :
    BoundsHold c.table S (ps.foldlM
      (fun bounds (f, a) =>
        match a with
        | .wildcard _ _ => .ok bounds
        | a => (bounds ++ ·) <$> c.reduceEqual f a) bounds) := by
  induction ps generalizing bounds with
  | nil => exact ⟨bounds, rfl, before⟩
  | cons p ps ih =>
    obtain ⟨f, a⟩ := p
    obtain ⟨here, others⟩ := List.forall_mem_cons.mp h
    rw [List.foldlM_cons]
    cases a with
    | wildcard _ _ => exact ih before others
    | _ =>
      obtain ⟨more, found, hold⟩ := here rfl
      dsimp only
      rw [found]
      exact ih (List.forall_mem_append.mpr ⟨before, hold⟩) others

omit assigns in
/-- An argument of a view is related to one that is compared with the same argument of a class. -/
theorem exists_mem_zip_of_forall₂ {R : JavaType → JavaType → Prop} {vs ws as : List JavaType}
    (each : List.Forall₂ R vs ws) (length : ws.length = as.length) {p : JavaType × JavaType}
    (hp : p ∈ vs.zip as) : ∃ w, R p.1 w ∧ (p.2, w) ∈ as.zip ws := by
  induction each generalizing as with
  | nil => exact absurd hp (by simp)
  | @cons v w _ _ here _ ih =>
    cases as with
    | nil => exact absurd hp (by simp)
    | cons a as =>
      rcases List.mem_cons.mp hp with rfl | hp
      · exact ⟨w, here, List.mem_cons_self⟩
      · obtain ⟨w, related, hw⟩ := ih (Nat.succ.inj length) hp
        exact ⟨w, related, List.mem_cons_of_mem _ hw⟩

/-- Bounds hold for a class type that is below the actual type once it is substituted. -/
theorem boundsHold_reduceAbove (acyclic : c.table.Acyclic) (supers : c.table.ClassSupertypes)
    {name : String} {args : List JavaType} (proper : name ≠ JavaType.objectName)
    (free : a.VariableFree)
    (admits : c.admits .supertype ((JavaType.declared name args).substitute S) a = true) :
    BoundsHold c.table S (c.reduceAbove (.declared name args) a) := by
  obtain ⟨n, below⟩ := ClassTable.isSubtypeIn_iff.mp admits
  rw [JavaType.substitute] at below
  obtain ⟨target, sups, m, other, ws, rfl, found, fit⟩ :=
    ClassTable.exists_view_of_above proper free below
  have related : List.Forall₂ (Follows c S c.free) args (JavaType.substituteEach S args) := by
    rw [JavaType.substituteEach_eq_map, List.forall₂_map_right_iff, List.forall₂_same]
    exact fun f _ => follows_substitute assigns c.free f
  obtain ⟨vs, view, each⟩ :=
    ClassTable.exists_view_of_related substitutionClosed_follows supers related found
  have seen := ClassTable.asSuper?_eq acyclic supers view
  unfold reduceAbove
  dsimp only
  rw [seen]
  dsimp only
  split
  · exact .nil
  · rename_i comparable
    rw [not_or, not_not, List.isEmpty_iff] at comparable
    refine boundsHold_foldlM (fun _ hb => absurd hb List.not_mem_nil) fun p hp plain => ?_
    rcases fit with rfl | rfl | ⟨length, m, contains⟩
    · exact absurd hp (by simp)
    · rw [List.forall₂_nil_right_iff] at each
      exact absurd each comparable.1
    · obtain ⟨w, follows, hw⟩ := exists_mem_zip_of_forall₂ each length hp
      have same : p.2.isSame w = true := by
        have here := contains _ hw
        rw [containsArgument_of_plain plain] at here
        exact Option.some.inj here
      refine follows.equal p.2 (fun v _ => ?_) ((JavaType.isSame_comm _ _).trans same)
      exact JavaType.VariableFree.of_mem free (List.of_mem_zip hp).2 [v]

/-! ### Comparisons -/

/-- The bound of a free variable holds. -/
theorem boundsHold_var {name : String} {upper : JavaType} {lower : Option JavaType}
    (strict : conversion ≠ .loose) (free : name ∈ c.free)
    (admits : c.admits conversion ((JavaType.var name upper lower).substitute S) a = true) :
    BoundsHold c.table S (c.compareForms conversion (.var name upper lower) a) := by
  obtain ⟨x, found⟩ := Option.isSome_iff_exists.mp ((assigns.domain name).mpr free)
  rw [JavaType.substitute, found] at admits
  have here : Bound.Holds c.table S ⟨name, conversion.boundKind, a⟩ := by
    refine ⟨x, found, ?_⟩
    cases conversion with
    | loose => exact absurd rfl strict
    | subtype => exact admits
    | supertype => exact admits
  cases a with
  | wildcard _ _ => exact .nil
  | _ => exact .single here

/-- Bounds hold for a class type that is above the actual type once it is substituted, if they do
for the bounds of its wildcards. -/
theorem boundsHold_below (acyclic : c.table.Acyclic) (supers : c.table.ClassSupertypes)
    {name : String} {args : List JavaType} (proper : name ≠ JavaType.objectName)
    (mentioned : (JavaType.declared name args).mentions c.free = true) (free : a.VariableFree)
    (plain : a.isWildcard = false) (value : a.isNull = false)
    (admits : c.admits .subtype ((JavaType.declared name args).substitute S) a = true)
    (inner : ∀ q, Comparison.Step c ⟨.subtype, .declared name args, a⟩ q →
      c.admits q.conversion (q.formal.substitute S) q.actual = true →
        BoundsHold c.table S (c.reduce q.conversion q.formal q.actual)) :
    BoundsHold c.table S (c.compareForms .subtype (.declared name args) a) := by
  obtain ⟨n, below⟩ := ClassTable.isSubtypeIn_iff.mp admits
  rw [JavaType.substitute, JavaType.substituteEach_eq_map] at below
  obtain ⟨other, vs, view, fit⟩ :=
    ClassTable.exists_view_of_below acyclic supers proper free plain value below
  rw [compareForms_below view]
  rcases fit with raw | rfl | ⟨length, m, contains⟩
  · obtain rfl := List.map_eq_nil_iff.mp raw
    exact absurd mentioned Bool.false_ne_true
  · exact .nil
  · rw [List.length_map] at length
    split
    · exact .nil
    · rw [if_neg (not_not.mpr length.symm)]
      refine boundsHold_reduceArguments fun p hp => ?_
      have contained : (p.1.substitute S, p.2) ∈ (args.map (JavaType.substitute S)).zip vs := by
        rw [List.zip_map_left]
        exact List.mem_map_of_mem hp
      obtain ⟨f, v⟩ := p
      refine boundsHold_argument assigns (contains _ contained) ?_ ?_
      · rintro b x rfl about inside
        exact inner _ (.upper mentioned view hp about) inside
      · rintro b x rfl about inside
        exact inner _ (.lower mentioned view hp about) inside

/-- Bounds hold for an array that is above the actual type once it is substituted, if they do for
its elements. -/
theorem boundsHold_array {element : JavaType} (mentioned : element.mentions c.free = true)
    (free : a.VariableFree) (plain : a.isWildcard = false) (value : a.isNull = false)
    (admits : c.admits .subtype ((JavaType.array element).substitute S) a = true)
    (inner : ∀ q, Comparison.Step c ⟨.subtype, .array element, a⟩ q →
      c.admits q.conversion (q.formal.substitute S) q.actual = true →
        BoundsHold c.table S (c.reduce q.conversion q.formal q.actual)) :
    BoundsHold c.table S (c.compareForms .subtype (.array element) a) := by
  obtain ⟨n, below⟩ := ClassTable.isSubtypeIn_iff.mp admits
  rw [JavaType.substitute] at below
  obtain ⟨x, rfl, compared⟩ := ClassTable.exists_element_of_below free plain value below
  unfold compareForms
  dsimp only
  split
  · rename_i primitive
    rcases compared with same | ⟨reference, -⟩
    · refine (follows_substitute assigns [] element).equal x ?_ ?_
      · exact fun _ h => absurd h List.not_mem_nil
      · exact (JavaType.isSame_comm _ _).trans same
    · exact absurd (primitive.symm.trans reference) (by decide)
  · refine inner _ (.element mentioned) ?_
    rcases compared with same | ⟨-, m, inside⟩
    · exact ClassTable.isSubtypeIn_iff.mpr ⟨1, ClassTable.subtypeWithin_of_isSame same⟩
    · exact ClassTable.isSubtypeIn_iff.mpr ⟨m, inside⟩

/-- If the formal type admits the actual one once it is substituted, then reduction succeeds with
bounds that hold, unless it meets a comparison that it decides otherwise. -/
theorem boundsHold_reduce (acyclic : c.table.Acyclic) (supers : c.table.ClassSupertypes)
    (conversion : Conversion) (f a : JavaType)
    (faithful : ∀ q, Comparison.Reaches c ⟨conversion, f, a⟩ q → q.Faithful c.free)
    (strict : conversion ≠ .loose) (admits : c.admits conversion (f.substitute S) a = true) :
    BoundsHold c.table S (c.reduce conversion f a) := by
  have here := faithful _ .refl
  cases mentioned : f.mentions c.free with
  | false =>
    rw [substitute_of_occurs assigns (here.bounds mentioned)] at admits
    rw [reduce_of_not_mentions mentioned admits]
    exact .nil
  | true =>
    cases value : a.isNull with
    | true =>
      rw [reduce_null mentioned value]
      exact .nil
    | false =>
      -- a type that mentions a parameter stands for a reference, and so does what is compared with
      -- it
      have reference : a.isPrimitive = false := by
        have kind := isPrimitive_substitute assigns mentioned
        cases conversion with
        | loose => exact absurd rfl strict
        | subtype =>
          obtain ⟨n, below⟩ := ClassTable.isSubtypeIn_iff.mp admits
          exact (ClassTable.isPrimitive_eq_of_below below).trans kind
        | supertype =>
          obtain ⟨n, above⟩ := ClassTable.isSubtypeIn_iff.mp admits
          exact (ClassTable.isPrimitive_eq_of_below above).symm.trans kind
      -- what reduction compares in turn is reached from here, and smaller
      have inner (q : Comparison) (step : Comparison.Step c ⟨conversion, f, a⟩ q) :=
        boundsHold_reduce acyclic supers q.conversion q.formal q.actual
          (fun r reached => faithful r (.head step reached)) step.strict
      rw [reduce_eq mentioned value (boxActual_of_reference reference)]
      cases f with
      | var name upper lower =>
        exact boundsHold_var assigns strict (List.contains_iff_mem.mp mentioned) admits
      | declared name args =>
        have proper : name ≠ JavaType.objectName :=
          fun root => here.root mentioned (congrArg some root)
        cases conversion with
        | loose => exact absurd rfl strict
        | subtype =>
          have plain : a.isWildcard = false := here.plain mentioned (.inr rfl) rfl
          exact boundsHold_below assigns acyclic supers proper mentioned (here.actual mentioned)
            plain value admits inner
        | supertype =>
          exact boundsHold_reduceAbove assigns acyclic supers proper (here.actual mentioned) admits
      | array element =>
        obtain rfl : conversion = .subtype := here.direction mentioned rfl
        have plain : a.isWildcard = false := here.plain mentioned (.inl rfl) rfl
        exact boundsHold_array assigns mentioned (here.actual mentioned) plain value admits inner
      | _ => exact .nil
termination_by f.size
decreasing_by exact step.size_lt

/-! ### Arguments -/

/-- Bounds hold for an argument that is assignable to its parameter once it is substituted. -/
theorem boundsHold_of_isAssignable (acyclic : c.table.Acyclic) (supers : c.table.ClassSupertypes)
    (faithful : ∀ q, (Comparison.start f a).Reaches c q → q.Faithful c.free)
    (assignable : c.table.isAssignable a (f.substitute S) c.boxing = true) :
    BoundsHold c.table S (c.reduce .loose f a) := by
  cases mentioned : f.mentions c.free with
  | false =>
    have here := faithful _ .refl
    have same : f.substitute S = f := substitute_of_occurs assigns (here.bounds mentioned)
    rw [same] at assignable
    have admitted : c.admits .loose f a = true := assignable
    rw [reduce_of_not_mentions mentioned admitted]
    exact .nil
  | true =>
    cases value : a.isNull with
    | true =>
      rw [reduce_null mentioned value]
      exact .nil
    | false =>
      have strict := boundsHold_reduce assigns acyclic supers .subtype f (a.boxed?.getD a) faithful
        Conversion.noConfusion
      have kind := isPrimitive_substitute assigns mentioned
      rcases ClassTable.isSubtype_of_isAssignable assignable kind with
        ⟨reference, below⟩ | ⟨boxing, wrapper, boxed, below⟩
      · rw [JavaType.boxed?_of_reference reference, Option.getD_none] at strict
        have parts := strict below
        have boxed : ∀ conversion, c.boxActual conversion f a = .ok a :=
          fun _ => boxActual_of_reference reference
        rw [reduce_eq mentioned value (boxed _)] at parts ⊢
        rwa [compareForms_loose]
      · rw [boxed, Option.getD_some] at strict
        have parts := strict below
        obtain ⟨-, name, rfl⟩ := JavaType.exists_of_boxed? boxed
        rw [reduce_eq mentioned rfl (boxActual_of_reference rfl)] at parts
        rwa [reduce_eq mentioned value (boxActual_wrapper boxed boxing), compareForms_loose]

/-- If all actual types are assignable to their formal types once some types are assigned to the
free variables, then reduction succeeds, and these types satisfy all bounds that it records. -/
theorem exists_bounds_of_isAssignable {arity : String → Nat} {pairs : List (JavaType × JavaType)}
    (acyclic : c.table.Acyclic) (correct : c.table.ArityCorrect arity)
    (faithful : ∀ pair ∈ pairs, ∀ q,
      (Comparison.start pair.1 pair.2).Reaches c q → q.Faithful c.free)
    (assignable : ∀ pair ∈ pairs,
      c.table.isAssignable pair.2 (pair.1.substitute S) c.boxing = true) :
    ∃ bounds, c.reduceAll pairs = .ok bounds ∧ ∀ b ∈ bounds, b.Holds c.table S := by
  induction pairs with
  | nil => exact BoundsHold.nil
  | cons pair pairs ih =>
    obtain ⟨f, a⟩ := pair
    obtain ⟨here, others⟩ := List.forall_mem_cons.mp faithful
    obtain ⟨fits, rest⟩ := List.forall_mem_cons.mp assignable
    exact BoundsHold.append (boundsHold_of_isAssignable assigns acyclic correct.classes here fits)
      (ih others rest)

omit assigns in
/-- A number that is boxed can be put into a list of numbers: the variable stands for the wrapper,
which lies below the elements of the list. -/
theorem exists_bounds_of_isAssignable_core :
    ∃ bounds, (InferenceContext.mk .core true ["T"]).reduceAll
        [(.declared "java.util.List" [.wildcard .lower (some (.freeVariable "T"))],
            .declared "java.util.ArrayList" [.ofClass "java.lang.Number"]),
          (.freeVariable "T", .primitive .int)] = .ok bounds ∧
      ∀ b ∈ bounds, b.Holds .core [("T", .ofClass "java.lang.Integer")] := by
  have assigns : Substitution.Assigns [("T", .ofClass "java.lang.Integer")] ["T"] := by
    have lookup (v : String) (x : JavaType)
        (found : List.lookup v [("T", JavaType.ofClass "java.lang.Integer")] = some x) :
        x = .ofClass "java.lang.Integer" := by
      rw [List.lookup_cons] at found
      split at found
      · exact (Option.some.inj found).symm
      · exact absurd found (by simp)
    refine ⟨fun v => ?_, fun v x found => ?_, fun v x found => ?_⟩
    · rw [List.lookup_cons, List.mem_singleton]
      by_cases same : v = "T"
      · simp [same]
      · simp [same, beq_eq_false_iff_ne.mpr same]
    · rw [lookup v x found]
      rfl
    · rw [lookup v x found]
      rfl
  refine exists_bounds_of_isAssignable assigns ClassTable.regular_core.acyclic
    ClassTable.regular_core.arityCorrect ?_ (by decide +kernel)
  intro pair hpair q reached
  have ground : q.actual.isGround ClassTable.core.arity false = true := by
    refine reached.isGround ClassTable.regular_core ?_
    rcases List.mem_pair.mp hpair with rfl | rfl <;> decide +kernel
  -- the types that are compared are those of the parameters, and the bound of the wildcard
  have formal : q.formal = .freeVariable "T" ∨
      q.formal = .declared "java.util.List" [.wildcard .lower (some (.freeVariable "T"))] := by
    rcases List.mem_pair.mp hpair with rfl | rfl
    · rcases Relation.ReflTransGen.cases_head reached with rfl | ⟨r, step, later⟩
      · exact .inr rfl
      · refine .inl ?_
        cases step with
        | upper _ _ hb _ => exact absurd (List.of_mem_zip hb).1 (by simp)
        | lower _ _ hb _ =>
          have bound := List.mem_singleton.mp (List.of_mem_zip hb).1
          rw [JavaType.wildcard.injEq, Option.some.injEq] at bound
          rw [Comparison.Reaches.eq_of_var later bound.2, bound.2]
    · exact .inl (congrArg Comparison.formal (reached.eq_of_var rfl))
  rcases formal with formal | formal
  all_goals
    refine .of_isGround ground ?_ ?_ ?_
    · rw [formal]
      decide
    · rw [formal]
      decide
    · rw [formal]
      exact fun _ array => absurd array Bool.false_ne_true

end InferenceContext

end JavaRefactor
