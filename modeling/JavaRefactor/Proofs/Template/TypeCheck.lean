import JavaRefactor.Proofs.Expansion.Instantiation
import JavaRefactor.Proofs.Inference.Instantiation
import JavaRefactor.Proofs.Matching.Extension
import JavaRefactor.Template.Expression

/-!
# The types of an accepted match

A match that a template accepts has its type parameters bound, each below its upper bound.
What an argument stands for can be assigned to its declared type, and so can the matched
expression to the type of the result, where the declared types are expanded under the final
bindings (`ExpressionTemplate.match?_wellTyped`).

The declared types are checked in another form: expanded under the bindings of the match
alone, with the types that inference found substituted afterwards.  A type parameter that the
match has bound may stand for a type of the program with type variables of its own, and a
variable among them may have the name of a parameter that is left to inference.  Then the
substitution replaces a variable of the program, and the two forms differ.  `Hygienic` says
that this does not happen.
-/

namespace JavaRefactor

/-! ### Binding what was inferred -/

/-- Binding a name leaves the others as they were. -/
theorem Assignments.lookup_insert?_of_ne {α : Type} {entries extended : Assignments α}
    {name other : String} {value : α} (h : entries.insert? name value = some extended)
    (ne : other ≠ name) : extended.lookup other = entries.lookup other := by
  cases found : extended.lookup other with
  | some v =>
    rcases Assignments.lookup_of_insert? h found with old | ⟨rfl, -⟩
    · exact old.symm
    · exact absurd rfl ne
  | none =>
    cases old : entries.lookup other with
    | none => rfl
    | some v => rw [Assignments.lookup_insert?_of_lookup h old] at found; simp at found

namespace TemplateHeader

variable {h : TemplateHeader} {table : ClassTable} {a b : Bindings}

/-- Binding inferred types gives the listed variables the types that were found and leaves all
other variables alone. -/
theorem bindInferred_eq_some {found : Substitution} {vars : List String}
    (h : bindInferred found vars a = some b) :
    b.free = a.free ∧ b.repeated = a.repeated ∧
      (∀ var ∈ vars, b.types.lookup var = some ⟨(found.lookup var).getD .object, none⟩) ∧
      ∀ var, var ∉ vars → b.types.lookup var = a.types.lookup var := by
  induction vars generalizing a with
  | nil =>
    obtain rfl : a = b := Option.some.inj h
    exact ⟨rfl, rfl, fun _ hvar => absurd hvar List.not_mem_nil, fun _ _ => rfl⟩
  | cons v vars ih =>
    rw [bindInferred] at h
    split at h
    · rename_i extended inserted
      obtain ⟨types, htypes, rfl⟩ := Bindings.insertType_eq_ok inserted
      obtain ⟨free, repeated, inferred, others⟩ := ih h
      refine ⟨free, repeated, fun var hvar => ?_, fun var hvar => ?_⟩
      · by_cases later : var ∈ vars
        · exact inferred var later
        · obtain rfl : var = v := (List.mem_cons.mp hvar).resolve_right later
          rw [others var later, Assignments.lookup_insert?_self htypes]
      · rw [List.mem_cons, not_or] at hvar
        rw [others var hvar.2, Assignments.lookup_insert?_of_ne htypes hvar.1]
    · exact absurd h (by simp)

/-! ### The check -/

/-- What an accepted check has done, step by step. -/
theorem typeCheck_eq_some_iff {result : Option (TypePattern × JavaType)} :
    h.typeCheck table a result = some b ↔
      ∃ first arguments found,
        (result.toList.mapM fun (declared, type) =>
          (declared.expand table a).toOption.map (·, type)) = some first ∧
        argumentTypes table a h.args = some arguments ∧
        (InferenceContext.mk table (!h.options.noAutoboxing) (h.unbound a)).instantiate
          ((first ++ arguments).map Prod.fst) (.primitive .void)
          ((first ++ arguments).map Prod.snd) = .ok found ∧
        bindInferred found.substitution (h.unbound a) a = some b ∧
        ∀ p ∈ h.typeParams.params, boundHolds table b p = true := by
  unfold typeCheck
  constructor
  · intro accepted
    obtain ⟨first, hfirst, accepted⟩ := Option.bind_eq_some_iff.mp accepted
    obtain ⟨arguments, harguments, accepted⟩ := Option.bind_eq_some_iff.mp accepted
    obtain ⟨found, hfound, accepted⟩ := Option.bind_eq_some_iff.mp accepted
    obtain ⟨bound, hbound, accepted⟩ := Option.bind_eq_some_iff.mp accepted
    obtain ⟨holds, same⟩ := Option.ite_none_right_eq_some.mp accepted
    obtain rfl := Option.some.inj same
    exact ⟨first, arguments, found, hfirst, harguments, Bindings.toOption_eq_some hfound, hbound,
      List.all_eq_true.mp holds⟩
  · rintro ⟨first, arguments, found, hfirst, harguments, hfound, hbound, holds⟩
    refine Option.bind_eq_some_iff.mpr ⟨first, hfirst, Option.bind_eq_some_iff.mpr
      ⟨arguments, harguments, Option.bind_eq_some_iff.mpr ⟨found, ?_, Option.bind_eq_some_iff.mpr
        ⟨b, hbound, if_pos (List.all_eq_true.mpr holds)⟩⟩⟩⟩
    exact congrArg Except.toOption hfound

/-- Every type of an accepted check is assignable to its declared type, once the types that
inference found are substituted. -/
theorem assignable_of_typeCheck {result : Option (TypePattern × JavaType)}
    (accepted : h.typeCheck table a result = some b) :
    ∃ first arguments found,
      (result.toList.mapM fun (declared, type) =>
        (declared.expand table a).toOption.map (·, type)) = some first ∧
      argumentTypes table a h.args = some arguments ∧
      found.map Prod.fst = h.unbound a ∧
      (∀ pair ∈ first ++ arguments,
        table.isAssignable pair.2 (pair.1.substitute found) (!h.options.noAutoboxing) = true) ∧
      bindInferred found (h.unbound a) a = some b ∧
      ∀ p ∈ h.typeParams.params, boundHolds table b p = true := by
  obtain ⟨first, arguments, found, hfirst, harguments, hfound, hbound, holds⟩ :=
    typeCheck_eq_some_iff.mp accepted
  obtain ⟨names, assignable⟩ := InferenceContext.instantiate_eq_ok hfound
  refine ⟨first, arguments, found.substitution, hfirst, harguments, names, fun pair hpair => ?_,
    hbound, holds⟩
  refine assignable pair ?_
  rw [List.zip_map', List.mem_map]
  exact ⟨pair, hpair, rfl⟩

/-- What an accepted check of a match with a result type has done. -/
theorem typeCheck_eq_some {result : TypePattern × JavaType}
    (accepted : h.typeCheck table a (some result) = some b) :
    ∃ type arguments found,
      result.1.expand table a = .ok type ∧
      argumentTypes table a h.args = some arguments ∧
      found.map Prod.fst = h.unbound a ∧
      (∀ pair ∈ (type, result.2) :: arguments,
        table.isAssignable pair.2 (pair.1.substitute found) (!h.options.noAutoboxing) = true) ∧
      bindInferred found (h.unbound a) a = some b ∧
      ∀ p ∈ h.typeParams.params, boundHolds table b p = true := by
  obtain ⟨first, arguments, found, hfirst, checked⟩ := assignable_of_typeCheck accepted
  -- the result type is the only member of the first list
  rw [Option.toList_some, List.mapM_cons] at hfirst
  obtain ⟨pair, hpair, hfirst⟩ := Option.bind_eq_some_iff.mp hfirst
  obtain ⟨type, htype, rfl⟩ := Option.map_eq_some_iff.mp hpair
  obtain rfl := Option.some.inj hfirst
  exact ⟨type, arguments, found, Bindings.toOption_eq_some htype, checked⟩

/-- The upper bound of a type parameter that is bound. -/
theorem boundHolds_eq_true {p : TypeParameter} {bound : TypeBinding}
    (found : b.types.lookup p.name = some bound) (holds : boundHolds table b p = true) :
    ∃ upper, p.upper.expand table b = .ok upper ∧
      table.isSubtypeUnchecked bound.type upper = true := by
  unfold boundHolds at holds
  split at holds
  · rename_i free
    rw [free] at found
    exact absurd found (by simp)
  · rename_i other upper hother hupper
    obtain rfl : other = bound := Option.some.inj (hother.symm.trans found)
    exact ⟨upper, hupper, holds⟩
  · exact absurd holds (by simp)

/-- The first of some arguments is checked with what it stands for, a single expression before a
repeated one, and the others are checked behind it. -/
theorem argumentTypes_cons {args : List (String × TypePattern)} {name : String}
    {declared : TypePattern} {pairs : List (JavaType × JavaType)}
    (found : argumentTypes table a ((name, declared) :: args) = some pairs) :
    ∃ own rest, argumentTypes table a args = some rest ∧ pairs = own ++ rest ∧
      (∀ e, a.free.lookup name = some e →
        ∃ type, declared.expand table a = .ok type ∧ own = [(type, e.type)]) ∧
      ∀ e es, a.free.lookup name = none → a.repeated.lookup name = some (e :: es) →
        ∃ type bound, declared.expand table a = .ok type ∧
          table.lub ((e :: es).map (·.type)) = some bound ∧ own = [(type, bound)] := by
  rw [argumentTypes] at found
  split at found
  · rename_i x captured
    obtain ⟨type, htype, found⟩ := Option.bind_eq_some_iff.mp found
    obtain ⟨rest, hrest, found⟩ := Option.bind_eq_some_iff.mp found
    obtain rfl := Option.some.inj found
    refine ⟨[(type, x.type)], rest, hrest, rfl, fun e he => ?_, fun e es none => ?_⟩
    · obtain rfl : x = e := Option.some.inj (captured.symm.trans he)
      exact ⟨type, Bindings.toOption_eq_some htype, rfl⟩
    · cases captured.symm.trans none
  · rename_i none empty
    refine ⟨[], pairs, found, rfl, fun e he => ?_, fun e es _ captured => ?_⟩
    · cases none.symm.trans he
    · rw [captured] at empty
      cases empty
  · rename_i x xs none captured
    obtain ⟨bound, hbound, found⟩ := Option.bind_eq_some_iff.mp found
    obtain ⟨type, htype, found⟩ := Option.bind_eq_some_iff.mp found
    obtain ⟨rest, hrest, found⟩ := Option.bind_eq_some_iff.mp found
    obtain rfl := Option.some.inj found
    refine ⟨[(type, bound)], rest, hrest, rfl, fun e he => ?_, fun e es _ he => ?_⟩
    · cases none.symm.trans he
    · rw [he, Option.getD_some] at captured
      rw [captured]
      exact ⟨type, bound, Bindings.toOption_eq_some htype, hbound, rfl⟩

/-- An argument that stands for an expression is checked with its declared type. -/
theorem mem_argumentTypes {args : List (String × TypePattern)} {name : String}
    {declared : TypePattern} {e : Expr} {pairs : List (JavaType × JavaType)}
    (found : argumentTypes table a args = some pairs) (mem : (name, declared) ∈ args)
    (captured : a.free.lookup name = some e) :
    ∃ type, declared.expand table a = .ok type ∧ (type, e.type) ∈ pairs := by
  induction args generalizing pairs with
  | nil => exact absurd mem List.not_mem_nil
  | cons arg args ih =>
    obtain ⟨own, rest, hrest, rfl, single, -⟩ := argumentTypes_cons found
    rcases List.mem_cons.mp mem with rfl | mem
    · obtain ⟨type, htype, rfl⟩ := single e captured
      exact ⟨type, htype, List.mem_cons_self⟩
    · obtain ⟨type, htype, hpair⟩ := ih hrest mem
      exact ⟨type, htype, List.mem_append_right own hpair⟩

/-- A repeated argument that stands for some expressions is checked with their bound. -/
theorem mem_argumentTypes_repeated {args : List (String × TypePattern)} {name : String}
    {declared : TypePattern} {e : Expr} {es : List Expr} {pairs : List (JavaType × JavaType)}
    (found : argumentTypes table a args = some pairs) (mem : (name, declared) ∈ args)
    (single : a.free.lookup name = none) (captured : a.repeated.lookup name = some (e :: es)) :
    ∃ type bound, declared.expand table a = .ok type ∧
      table.lub ((e :: es).map (·.type)) = some bound ∧ (type, bound) ∈ pairs := by
  induction args generalizing pairs with
  | nil => exact absurd mem List.not_mem_nil
  | cons arg args ih =>
    obtain ⟨own, rest, hrest, rfl, -, repeated⟩ := argumentTypes_cons found
    rcases List.mem_cons.mp mem with rfl | mem
    · obtain ⟨type, bound, htype, hbound, rfl⟩ := repeated e es single captured
      exact ⟨type, bound, htype, hbound, List.mem_cons_self⟩
    · obtain ⟨type, bound, htype, hbound, hpair⟩ := ih hrest mem
      exact ⟨type, bound, htype, hbound, List.mem_append_right own hpair⟩

/-- No type variable of the program is taken for a type parameter that a match has left to
inference: such a parameter occurs in no type that the match has bound, and no signature among
the declared types declares it again. -/
structure Hygienic (h : TemplateHeader) (result : TypePattern) (a : Bindings) : Prop where
  bound : ∀ var ∈ h.unbound a, ∀ name bound, a.types.lookup name = some bound →
    bound.type.occurs var = false
  declared : ∀ var ∈ h.unbound a, ∀ p ∈ result :: h.args.map Prod.snd, p.quantifies var = false

/-- Under hygiene, a variable stands in the end for what it stood for first, with the types of
inference substituted. -/
theorem typeNamed_substitute {result : TypePattern} {found : Substitution}
    (hygienic : h.Hygienic result a) (names : found.map Prod.fst = h.unbound a)
    (inferred : bindInferred found (h.unbound a) a = some b) (var : String) :
    b.typeNamed var = (a.typeNamed var).substitute found := by
  obtain ⟨-, -, inferred, others⟩ := bindInferred_eq_some inferred
  have entries : ∀ entry ∈ found, entry.1 ∈ h.unbound a := fun entry hentry =>
    names ▸ List.mem_map_of_mem hentry
  by_cases left : var ∈ h.unbound a
  · have free : a.types.lookup var = none := by
      simpa using (List.mem_filter.mp left).2
    obtain ⟨type, htype⟩ : ∃ type, found.lookup var = some type := by
      rw [← Option.isSome_iff_exists, List.lookup_isSome_iff]
      obtain ⟨entry, hentry, rfl⟩ := List.mem_map.mp (names.symm ▸ left)
      exact ⟨entry, hentry, beq_self_eq_true _⟩
    simp only [Bindings.typeNamed, inferred var left, free, JavaType.freeVariable,
      JavaType.substitute, htype, Option.getD_some]
  · have apart : found.lookup var = none :=
      Substitution.lookup_eq_none fun entry hentry e => left (e ▸ entries entry hentry)
    simp only [Bindings.typeNamed, others var left]
    cases kept : a.types.lookup var with
    | some bound =>
      exact (JavaType.substitute_eq_self _ fun entry hentry =>
        hygienic.bound _ (entries entry hentry) var bound kept).symm
    | none =>
      simp only [JavaType.freeVariable, JavaType.substitute, apart]
      rfl

/-- Under hygiene, a declared type that was checked with substituted types is the one that it
becomes under the final bindings. -/
theorem expand_final {result p : TypePattern} {found : Substitution} {type : JavaType}
    (hygienic : h.Hygienic result a) (names : found.map Prod.fst = h.unbound a)
    (inferred : bindInferred found (h.unbound a) a = some b)
    (declared : p ∈ result :: h.args.map Prod.snd) (expanded : p.expand table a = .ok type) :
    p.expand table b = .ok (type.substitute found) := by
  have quantifiers : ∀ entry ∈ found, p.quantifies entry.1 = false := fun entry hentry =>
    hygienic.declared _ (names ▸ List.mem_map_of_mem hentry) p declared
  rw [TypePattern.expand_substitute (typeNamed_substitute hygienic names inferred) p quantifiers,
    expanded]
  rfl

end TemplateHeader

/-! ### Accepted matches -/

namespace ExpressionTemplate

/-- The types of an accepted match.  Every type parameter is bound, and below its upper bound.
If no type variable of the program is taken for a parameter, what an argument stands for is
assignable to its declared type, and the matched expression to the declared type of the result,
all under the final bindings. -/
theorem match?_wellTyped (t : ExpressionTemplate) (c : MatchContext) (target : Expr)
    (b : Bindings) (accepted : t.match? c target = some b) :
    (∀ p ∈ t.header.typeParams.params, ∃ bound upper,
      b.types.lookup p.name = some bound ∧ p.upper.expand c.table b = .ok upper ∧
        c.table.isSubtypeUnchecked bound.type upper = true) ∧
    ∃ a, t.pattern.unify c.unit.symbols target .empty = some a ∧
      (t.header.Hygienic t.result a →
        (∃ type, t.result.expand c.table b = .ok type ∧
          c.table.isAssignable target.type type (!t.header.options.noAutoboxing) = true) ∧
        ∀ name declared e, (name, declared) ∈ t.header.args → b.free.lookup name = some e →
          ∃ type, declared.expand c.table b = .ok type ∧
            c.table.isAssignable e.type type (!t.header.options.noAutoboxing) = true) := by
  obtain ⟨a, matched, accepted⟩ := Option.bind_eq_some_iff.mp accepted
  split at accepted
  · exact absurd accepted (by simp)
  · obtain ⟨resultType, arguments, found, hresult, harguments, names, assignable, inferred,
      bounds⟩ := TemplateHeader.typeCheck_eq_some accepted
    obtain ⟨free, -, solved, others⟩ := TemplateHeader.bindInferred_eq_some inferred
    refine ⟨fun p hp => ?_, a, matched, fun hygienic => ⟨?_, ?_⟩⟩
    · obtain ⟨bound, hbound⟩ : ∃ bound, b.types.lookup p.name = some bound := by
        by_cases left : p.name ∈ t.header.unbound a
        · exact ⟨_, solved p.name left⟩
        · rw [others p.name left, ← Option.isSome_iff_exists, Option.isSome_iff_ne_none]
          intro unbound
          exact left (List.mem_filter.mpr ⟨List.mem_map_of_mem hp, by rw [unbound]; rfl⟩)
      obtain ⟨upper, hupper, below⟩ := TemplateHeader.boundHolds_eq_true hbound (bounds p hp)
      exact ⟨bound, upper, hbound, hupper, below⟩
    · exact ⟨_, TemplateHeader.expand_final hygienic names inferred List.mem_cons_self hresult,
        assignable (resultType, target.type) List.mem_cons_self⟩
    · intro name declared e hdeclared captured
      rw [free] at captured
      obtain ⟨type, htype, hpair⟩ :=
        TemplateHeader.mem_argumentTypes harguments hdeclared captured
      have declaredType : declared ∈ t.result :: t.header.args.map Prod.snd :=
        List.mem_cons_of_mem _ (List.mem_map.mpr ⟨_, hdeclared, rfl⟩)
      exact ⟨_, TemplateHeader.expand_final hygienic names inferred declaredType htype,
        assignable (type, e.type) (List.mem_cons_of_mem _ hpair)⟩

/-- A template `(E) x` with parameters `E` and `T`, where `x` has the type `T`. -/
private def castTemplate : ExpressionTemplate where
  header :=
    { options := {}
      typeParams := (TypeParameters.empty.declare "E").declare "T"
      args := [("x", .var "T")] }
  pattern := .cast (.typeVar "E") (.free "x")
  result := .var "E"

/-- The syntax of a type and a variable, in the code `(String) o`. -/
private def stringSyntax : Expr := .ident (.ofType .string) "String" none

private def objectVariable : Expr := .ident (.ofType .object) "o" none

/-- What the form of `(String) o` binds in the template. -/
private def castBindings : Bindings :=
  { free := [("x", objectVariable)]
    types := [("E", ⟨.string, some stringSyntax⟩)] }

/-- The types of the match of `(String) o`: there `E` is bound by the code, and `T` is inferred
from the type of `o`. -/
theorem match?_wellTyped_cast :
    let c : MatchContext := ⟨CompilationUnit.ofDeclarations none [] [] .empty, .rootOnly⟩
    let target : Expr := .cast (.ofType .string) stringSyntax objectVariable
    let b := { castBindings with types := castBindings.types ++ [("T", ⟨.object, none⟩)] }
    castTemplate.match? c target = some b ∧
      castTemplate.pattern.unify c.unit.symbols target .empty = some castBindings ∧
      castTemplate.header.Hygienic castTemplate.result castBindings ∧
      (∀ p ∈ castTemplate.header.typeParams.params, ∃ bound upper,
        b.types.lookup p.name = some bound ∧ p.upper.expand c.table b = .ok upper ∧
          c.table.isSubtypeUnchecked bound.type upper = true) ∧
      (∃ type, castTemplate.result.expand c.table b = .ok type ∧
        c.table.isAssignable target.type type true = true) ∧
      ∃ type, (TypePattern.var "T").expand c.table b = .ok type ∧
        c.table.isAssignable objectVariable.type type true = true := by
  intro c target b
  have formed : castTemplate.pattern.unify c.unit.symbols target .empty = some castBindings := rfl
  have hygienic : castTemplate.header.Hygienic castTemplate.result castBindings := by
    have left : castTemplate.header.unbound castBindings = ["T"] := by decide
    constructor
    · intro var hvar name bound hbound
      rw [left, List.mem_singleton] at hvar
      subst hvar
      have known : bound = ⟨.string, some stringSyntax⟩ := by
        simp only [castBindings, List.lookup_cons, List.lookup_nil] at hbound
        split at hbound
        · exact (Option.some.inj hbound).symm
        · exact absurd hbound (by simp)
      rw [known]
      decide
    · rw [left]
      decide
  have accepted : castTemplate.match? c target = some b := by
    rfl
  obtain ⟨bounds, a, matched, rest⟩ := castTemplate.match?_wellTyped c target b accepted
  obtain rfl : castBindings = a := Option.some.inj (formed.symm.trans matched)
  obtain ⟨result, arguments⟩ := rest hygienic
  exact ⟨accepted, formed, hygienic, bounds, result,
    arguments "x" (.var "T") objectVariable List.mem_cons_self rfl⟩

end ExpressionTemplate

end JavaRefactor
