import JavaRefactor.Proofs.Matching.Names
import JavaRefactor.Proofs.Tree.Equivalence
import JavaRefactor.Template.Basic

/-!
# Writing a matched pattern back

Matching takes code apart and expansion builds code.  For the patterns without alternatives
and without references to classes the two are inverse: what a pattern matched is equivalent
to what the pattern becomes under the bindings that the match found
(`expand_unify_equiv`).  The expansion needs no imports, so it does the same under every
policy.

The proof is an induction over the derivation of the match (`Matches.reproduced`).  Its
bindings are the final ones, which keep every value that was bound on the way.
-/

namespace JavaRefactor

/-! ### Patterns that can be written back -/

namespace TypePattern

mutual

/-- Whether a pattern of types only names classes of a table. -/
def isKnown (table : ClassTable) : TypePattern → Bool
  | .primitive _ | .var _ => true
  | .declared name args => (table.resolve name).isOk && isKnownEach table args
  | .array element => isKnown table element
  | .wildcard _ bound => isKnownOption table bound
  | .method params ret => isKnownEach table params && isKnown table ret
  | .generic _ signature => isKnown table signature

/-- Whether some patterns of types only name classes of a table. -/
def isKnownEach (table : ClassTable) : List TypePattern → Bool
  | [] => true
  | p :: ps => isKnown table p && isKnownEach table ps

/-- Whether an optional pattern of types only names classes of a table. -/
def isKnownOption (table : ClassTable) : Option TypePattern → Bool
  | none => true
  | some p => isKnown table p

end

variable {table : ClassTable} {b : Bindings}

mutual

/-- A pattern of known classes becomes a type. -/
theorem expand_of_isKnown : (p : TypePattern) → p.isKnown table = true →
    ∃ t, p.expand table b = .ok t
  | .primitive kind, _ => ⟨_, rfl⟩
  | .var name, _ => ⟨_, rfl⟩
  | .declared name args, h => by
    rw [isKnown, Bool.and_eq_true] at h
    obtain ⟨ts, hts⟩ := expandEach_of_isKnownEach args h.2
    cases found : table.resolve name with
    | error e =>
      rw [found] at h
      exact absurd h.1 Bool.false_ne_true
    | ok decl => exact ⟨_, by rw [expand, found, hts]; rfl⟩
  | .array element, h => by
    rw [isKnown] at h
    obtain ⟨t, ht⟩ := expand_of_isKnown element h
    exact ⟨_, by rw [expand, ht]; rfl⟩
  | .wildcard kind bound, h => by
    rw [isKnown] at h
    obtain ⟨t, ht⟩ := expandOption_of_isKnownOption bound h
    exact ⟨_, by rw [expand, ht]; rfl⟩
  | .method params ret, h => by
    rw [isKnown, Bool.and_eq_true] at h
    obtain ⟨ts, hts⟩ := expandEach_of_isKnownEach params h.1
    obtain ⟨t, ht⟩ := expand_of_isKnown ret h.2
    exact ⟨_, by rw [expand, hts, ht]; rfl⟩
  | .generic vars signature, h => by
    rw [isKnown] at h
    obtain ⟨t, ht⟩ := expand_of_isKnown signature h
    exact ⟨_, by rw [expand, ht]; rfl⟩

theorem expandEach_of_isKnownEach : (ps : List TypePattern) →
    isKnownEach table ps = true → ∃ ts, expandEach table b ps = .ok ts
  | [], _ => ⟨_, rfl⟩
  | p :: ps, h => by
    rw [isKnownEach, Bool.and_eq_true] at h
    obtain ⟨t, ht⟩ := expand_of_isKnown p h.1
    obtain ⟨ts, hts⟩ := expandEach_of_isKnownEach ps h.2
    exact ⟨_, by rw [expandEach, ht, hts]; rfl⟩

theorem expandOption_of_isKnownOption : (p : Option TypePattern) →
    isKnownOption table p = true → ∃ t, expandOption table b p = .ok t
  | none, _ => ⟨_, rfl⟩
  | some p, h => by
    rw [isKnownOption] at h
    obtain ⟨t, ht⟩ := expand_of_isKnown p h
    exact ⟨_, by rw [expandOption, ht]; rfl⟩

end

end TypePattern

namespace ExprPattern

mutual

/-- Whether a pattern can be written back: it has no alternatives and no references to
classes or type parameters, a repeated variable only ends a list, and type annotations only
name classes of the table. -/
def isReversible (table : ClassTable) : ExprPattern → Bool
  | .literal _ | .free _ | .localVar _ | .primitiveType _ => true
  | .typeVar _ | .classRef _ | .staticRef .. | .anyOf _ | .repeated _ => false
  | .binary _ p q | .assign p q | .compoundAssign _ p q | .cast p q | .instanceOf p q
  | .index p q => isReversible table p && isReversible table q
  | .unary _ p | .paren p | .arrayType p | .ofForm p _ => isReversible table p
  | .conditional p q r => isReversible table p && isReversible table q && isReversible table r
  | .call p ps | .newObject p ps => isReversible table p && isReversibleList table ps
  | .select p _ type => isReversible table p && type.isKnown table
  | .newArray element dims init =>
    isReversibleOption table element && isReversibleList table dims
      && isReversibleInit table init
  | .typeApply p ps => isReversible table p && isReversibleEach table ps

/-- Whether the patterns of a list, of which the last may be a repeated variable, can be
written back. -/
def isReversibleList (table : ClassTable) : List ExprPattern → Bool
  | [] => true
  | [.repeated _] => true
  | p :: ps => isReversible table p && isReversibleList table ps

/-- Whether each of some patterns can be written back. -/
def isReversibleEach (table : ClassTable) : List ExprPattern → Bool
  | [] => true
  | p :: ps => isReversible table p && isReversibleEach table ps

/-- Whether an optional pattern can be written back. -/
def isReversibleOption (table : ClassTable) : Option ExprPattern → Bool
  | none => true
  | some p => isReversible table p

/-- Whether the patterns of an optional array initializer can be written back. -/
def isReversibleInit (table : ClassTable) : Option (List ExprPattern) → Bool
  | none => true
  | some ps => isReversibleList table ps

end

end ExprPattern

/-- Whether a pattern of declarations can be written back. -/
def DeclPattern.isReversible (table : ClassTable) (p : DeclPattern) : Bool :=
  p.type.isReversible table && ExprPattern.isReversibleOption table p.init

namespace StmtPattern

mutual

/-- Whether a pattern of statements can be written back. -/
def isReversible (table : ClassTable) : StmtPattern → Bool
  | .block ps => isReversibleEach table ps
  | .ifElse cond yes no =>
    cond.isReversible table && isReversible table yes && isReversibleOption table no
  | .whileLoop cond body | .doLoop body cond | .synchronized cond body =>
    cond.isReversible table && isReversible table body
  | .forLoop init cond update body =>
    isReversibleEach table init && ExprPattern.isReversibleOption table cond
      && ExprPattern.isReversibleList table update && isReversible table body
  | .forEach var iterable body =>
    var.isReversible table && iterable.isReversible table && isReversible table body
  | .ret value => ExprPattern.isReversibleOption table value
  | .raise value | .expr value => value.isReversible table
  | .empty => true
  | .declare decl => decl.isReversible table

/-- Whether each of some patterns of statements can be written back. -/
def isReversibleEach (table : ClassTable) : List StmtPattern → Bool
  | [] => true
  | p :: ps => isReversible table p && isReversibleEach table ps

/-- Whether an optional pattern of statements can be written back. -/
def isReversibleOption (table : ClassTable) : Option StmtPattern → Bool
  | none => true
  | some p => isReversible table p

end

end StmtPattern

/-! ### Expansions that need no imports -/

/-- An expansion succeeds with a result of some kind, and neither depends on the pending
imports nor changes them. -/
def Expanding.Yields {α : Type} (x : Expanding α) (P : α → Prop) : Prop :=
  ∃ a, P a ∧ ∀ pending, x.run pending = (.ok a, pending)

namespace Expanding.Yields

variable {α β : Type} {P : α → Prop} {Q : β → Prop}

/-- A result that is given is the result. -/
theorem pure {a : α} (h : P a) : Yields (Pure.pure a) P :=
  ⟨a, h, fun _ => rfl⟩

/-- Two expansions in turn yield what the second one does for each result of the first. -/
theorem bind {x : Expanding α} {f : α → Expanding β} (hx : Yields x P)
    (hf : ∀ a, P a → Yields (f a) Q) : Yields (x >>= f) Q := by
  obtain ⟨a, ha, runs⟩ := hx
  obtain ⟨r, hr, continues⟩ := hf a ha
  refine ⟨r, hr, ?_⟩
  intro pending
  have step : (x >>= f).run pending
      = ExceptT.bindCont f (x.run pending).1 (x.run pending).2 := rfl
  rw [step, runs pending]
  exact continues pending

end Expanding.Yields

/-- The type of a known annotation is found without imports. -/
theorem ExpansionContext.expandType_yields {c : ExpansionContext} {p : TypePattern}
    (known : p.isKnown c.table = true) : (c.expandType p).Yields fun _ => True := by
  obtain ⟨t, ht⟩ := TypePattern.expand_of_isKnown (b := c.bindings) p known
  rw [expandType, ht]
  exact .pure trivial

/-- Without repeated variables, a list of patterns becomes one expression for each. -/
theorem ExprPattern.expandList_eq_expandEach {c : ExpansionContext} {table : ClassTable}
    {ps : List ExprPattern} (h : isReversibleEach table ps = true) :
    expandList c ps = expandEach c ps := by
  induction ps with
  | nil => rw [expandList, expandEach]
  | cons p ps ih =>
    rw [isReversibleEach, Bool.and_eq_true] at h
    rw [expandEach, ← ih h.2]
    cases p with
    | repeated name => exact absurd h.1 (by simp [isReversible])
    | _ => rfl

/-- What can be written back element by element can be written back as a list. -/
theorem ExprPattern.isReversibleList_of_each {table : ClassTable} {ps : List ExprPattern}
    (h : isReversibleEach table ps = true) : isReversibleList table ps = true := by
  induction ps with
  | nil => rfl
  | cons p ps ih =>
    rw [isReversibleEach, Bool.and_eq_true] at h
    have rest := ih h.2
    unfold isReversibleList
    split
    · rfl
    · rfl
    · rename_i heq
      obtain ⟨rfl, rfl⟩ := List.cons_eq_cons.mp heq
      rw [Bool.and_eq_true]
      exact ⟨h.1, rest⟩

/-! ### The goals of a match, written back -/

namespace MatchGoal

/-- Whether the pattern of a goal can be written back. -/
def isReversible (table : ClassTable) : MatchGoal → Bool
  | expr p _ | receiver p _ => p.isReversible table
  | list ps _ => ExprPattern.isReversibleList table ps
  | option p _ => ExprPattern.isReversibleOption table p
  | init ps _ => ExprPattern.isReversibleInit table ps
  | decl p _ => p.isReversible table
  | stmt p _ => p.isReversible table
  | stmts ps _ => StmtPattern.isReversibleEach table ps
  | stmtOption p _ => StmtPattern.isReversibleOption table p

/-- The pattern of a goal becomes something equivalent to its target. -/
def Reproduced (c : ExpansionContext) : MatchGoal → Prop
  | expr p e | receiver p e => (p.expand c).Yields fun r => r.Equiv e
  | list ps es => (ExprPattern.expandList c ps).Yields fun rs => List.Forall₂ Expr.Equiv rs es
  | option p e => (ExprPattern.expandOption c p).Yields fun r => Option.Rel Expr.Equiv r e
  | init ps es =>
    (ExprPattern.expandInit c ps).Yields fun rs => Option.Rel (List.Forall₂ Expr.Equiv) rs es
  | decl p d => (p.expand c).Yields fun r => r.Equiv d
  | stmt p s => (p.expand c).Yields fun r => r.Equiv s
  | stmts ps ss => (StmtPattern.expandEach c ps).Yields fun rs => List.Forall₂ Stmt.Equiv rs ss
  | stmtOption p s => (StmtPattern.expandOption c p).Yields fun r => Option.Rel Stmt.Equiv r s

end MatchGoal

section Variables

variable {c : ExpansionContext} {names : NamedSymbols} {a b : Bindings} {name : String}

/-- What a free variable matched is equivalent to what it stands for. -/
theorem Bindings.matchFree_equiv {e : Expr} (h : a.matchFree name e = some b) :
    ∃ bound, b.free.lookup name = some bound ∧ bound.Equiv e := by
  obtain ⟨-, ⟨-, inserted⟩ | ⟨bound, hbound, alike, rfl⟩⟩ := Bindings.matchFree_eq_some h
  · obtain ⟨free, hfree, rfl⟩ := Bindings.insertFree_eq_ok inserted
    exact ⟨e, Assignments.lookup_insert?_self hfree, .refl e⟩
  · exact ⟨bound, hbound, .alike alike⟩

/-- A variable that was matched expands to what it was matched with, up to equivalence. -/
theorem ExpansionContext.freeNamed_yields {e : Expr} (h : a.matchFree name e = some b)
    (kept : c.bindings.Extends b) : (c.freeNamed name).Yields fun r => r.Equiv e := by
  obtain ⟨bound, hbound, equiv⟩ := Bindings.matchFree_equiv h
  rw [freeNamed, kept.free name bound hbound]
  exact .pure equiv

/-- The local variable that a target refers to is written by the name in the target. -/
theorem ExpansionContext.localNamed_equiv {e : Expr} (agree : NamesAgree names)
    (h : a.matchLocal name e = some b) (kept : c.bindings.Extends b)
    (hlocals : c.bindings.LocalsIn names) (named : e.NamedIn names) :
    (c.localNamed name).Equiv e := by
  obtain ⟨rfl, i, found, bound, rfl, hbound⟩ := Bindings.matchLocal_eq_some h
  have kept := kept.locals name bound hbound
  have same : bound.name = found :=
    agree bound.symbol bound.name found (hlocals name bound kept) named.ident
  subst same
  rw [localNamed, kept]
  exact .ident _ i bound.name _ _

/-- What a repeated variable matched is equivalent to what it stands for, one by one. -/
theorem Bindings.items_equiv {es items : List Expr}
    (h : es.mapM (a.repeatedItem name) = some items) : List.Forall₂ Expr.Equiv items es := by
  refine List.Forall₂.flip ((mapM_eq_some_iff.mp h).imp ?_)
  intro e item taken
  obtain ⟨b, matched, found⟩ := Option.bind_eq_some_iff.mp taken
  obtain ⟨bound, hbound, equiv⟩ := matchFree_equiv matched
  rw [found] at hbound
  rw [flip, Option.some.inj hbound]
  exact equiv

/-- A variable for several expressions expands to what it was matched with, up to equivalence. -/
theorem ExpansionContext.repeatedNamed_yields {es : List Expr}
    (h : a.matchRepeated name es = some b) (kept : c.bindings.Extends b) :
    (c.repeatedNamed name).Yields fun rs => List.Forall₂ Expr.Equiv rs es := by
  obtain ⟨items, hitems, inserted⟩ := Bindings.matchRepeated_eq_some h
  obtain ⟨repeated, hrepeated, rfl⟩ := Bindings.insertRepeated_eq_ok inserted
  rw [repeatedNamed, kept.repeated name items (Assignments.lookup_insert?_self hrepeated)]
  exact .pure (Bindings.items_equiv hitems)

/-- A member of what reproduces a receiver reproduces the member, whether or not the receiver
is written on either side. -/
theorem Expr.selectFrom_equiv {r e : Expr} (h : r.Equiv e) (i : NodeInfo) (name : String)
    (type : JavaType) (s : Option SymbolId) :
    (r.selectFrom name type).Equiv (.select i e name s) := by
  unfold selectFrom
  split
  · rename_i implicit
    cases r with
    | this j => exact .symm (.selectOwn i _ j (.symm h) name s none)
    | _ => exact absurd implicit (by simp [isImplicitThis])
  · exact .select _ i h name none s

/-- A member selected from `this` is equivalent to its bare name. -/
theorem Expr.selectFrom_equiv_bare {r : Expr} {j : NodeInfo} (h : r.Equiv (.this j))
    (i : NodeInfo) (name : String) (type : JavaType) (s : Option SymbolId) :
    (r.selectFrom name type).Equiv (.ident i name s) := by
  unfold selectFrom
  split
  · exact .ident _ i name none s
  · exact .selectOwn _ i j h name none s

end Variables

/-! ### Every goal is reproduced -/

section Reproduction

variable {symbols : SymbolTable} {c : ExpansionContext} {names : NamedSymbols}

/-- The goals of a derivation are reproduced under every extension of its bindings in which
local variables have the names of the target. -/
theorem Matches.reproduced {g : MatchGoal} {a b : Bindings} (h : Matches symbols g a b)
    (agree : NamesAgree names) (hlocals : c.bindings.LocalsIn names)
    (reversible : g.isReversible c.table = true) (named : g.NamedIn names)
    (kept : c.bindings.Extends b) : g.Reproduced c := by
  -- By induction on the derivation.  Bindings grow from one part of a goal to the next, so the
  -- context extends those of an earlier part through the `extends` of the later ones.
  induction h with
  | free h =>
    show (ExprPattern.expand c _).Yields _
    rw [ExprPattern.expand]
    exact ExpansionContext.freeNamed_yields h kept
  | receiverFree h =>
    show (ExprPattern.expand c _).Yields _
    rw [ExprPattern.expand]
    exact ExpansionContext.freeNamed_yields h kept
  | localVar h =>
    show (ExprPattern.expand c _).Yields _
    rw [ExprPattern.expand]
    exact .pure (ExpansionContext.localNamed_equiv agree h kept hlocals named)
  -- these do not keep how the target is written, or choose among several patterns
  | repeatedOne | typeVar | classRef | staticRef | anyOf | receiverAnyOf =>
    exact absurd reversible (by simp [MatchGoal.isReversible, ExprPattern.isReversible])
  | @literal i value =>
    show (ExprPattern.expand c _).Yields _
    rw [ExprPattern.expand]
    exact .pure (.info _ (.literal i value))
  | @primitiveType i kind =>
    show (ExprPattern.expand c _).Yields _
    rw [ExprPattern.expand]
    exact .pure (.info _ (.primitiveType i kind))
  | binary hp hq ihp ihq | assign hp hq ihp ihq | compoundAssign hp hq ihp ihq
  | cast hp hq ihp ihq | instanceOf hp hq ihp ihq | index hp hq ihp ihq =>
    rw [MatchGoal.isReversible, ExprPattern.isReversible, Bool.and_eq_true] at reversible
    have first := ihp reversible.1 (named.child (by simp [Expr.children]))
      (kept.trans hq.extends)
    have second := ihq reversible.2 (named.child (by simp [Expr.children])) kept
    show (ExprPattern.expand c _).Yields _
    rw [ExprPattern.expand]
    refine first.bind fun l hl => second.bind fun r hr => .pure ?_
    exact .ofChildren [l, r] (.cons hl (.cons hr .nil)) rfl
  | @unary i op p t _ _ hp ihp =>
    rw [MatchGoal.isReversible, ExprPattern.isReversible] at reversible
    have operand := ihp reversible (named.child (by simp [Expr.children])).skipParens kept
    show (ExprPattern.expand c _).Yields _
    rw [ExprPattern.expand]
    refine operand.bind fun r hr => .pure ?_
    -- the match looked at the operand without its parentheses
    have hr : r.Equiv t := .trans hr (.skipParens t)
    exact .ofChildren [r] (.cons hr .nil) rfl
  | @conditional i p q s t u v _ _ _ _ hp hq hs ihp ihq ihs =>
    rw [MatchGoal.isReversible, ExprPattern.isReversible, Bool.and_eq_true, Bool.and_eq_true]
      at reversible
    obtain ⟨⟨revP, revQ⟩, revS⟩ := reversible
    have cond := ihp revP (named.child (by simp [Expr.children]))
      (kept.trans (hs.extends.trans hq.extends))
    have yes := ihq revQ (named.child (by simp [Expr.children])) (kept.trans hs.extends)
    have no := ihs revS (named.child (by simp [Expr.children])) kept
    show (ExprPattern.expand c _).Yields _
    rw [ExprPattern.expand]
    refine cond.bind fun x hx => yes.bind fun y hy => no.bind fun z hz => .pure ?_
    exact .ofChildren [x, y, z] (.cons hx (.cons hy (.cons hz .nil))) rfl
  | call hp hps ihp ihps | newObject hp hps ihp ihps =>
    rw [MatchGoal.isReversible, ExprPattern.isReversible, Bool.and_eq_true] at reversible
    have first := ihp reversible.1 (named.child List.mem_cons_self) (kept.trans hps.extends)
    have args := ihps reversible.2 (fun e he => named.child (List.mem_cons_of_mem _ he)) kept
    show (ExprPattern.expand c _).Yields _
    rw [ExprPattern.expand]
    refine first.bind fun r hr => args.bind fun rs hrs => .pure ?_
    exact .ofChildren (r :: rs) (.cons hr hrs) rfl
  | @typeApply i p ps t ts _ _ _ hp hps ihp ihps =>
    rw [MatchGoal.isReversible, ExprPattern.isReversible, Bool.and_eq_true] at reversible
    have base := ihp reversible.1 (named.child List.mem_cons_self) (kept.trans hps.extends)
    have args := ihps (ExprPattern.isReversibleList_of_each reversible.2)
      (fun e he => named.child (List.mem_cons_of_mem _ he)) kept
    show (ExprPattern.expand c _).Yields _
    rw [ExprPattern.expand, ← ExprPattern.expandList_eq_expandEach reversible.2]
    refine base.bind fun r hr => args.bind fun rs hrs => .pure ?_
    exact .ofChildren (r :: rs) (.cons hr hrs) rfl
  | @select i p name type t id symbol _ _ known hp typed ihp =>
    rw [MatchGoal.isReversible, ExprPattern.isReversible, Bool.and_eq_true] at reversible
    have receiver := ihp reversible.1 (named.child (by simp [Expr.children])) kept
    show (ExprPattern.expand c _).Yields _
    rw [ExprPattern.expand]
    refine receiver.bind ?_
    intro r hr
    refine (ExpansionContext.expandType_yields reversible.2).bind fun type _ => .pure ?_
    exact Expr.selectFrom_equiv hr i name type (some id)
  | @bareMember i p name owner type id symbol _ _ known member owned hp typed ihp =>
    rw [MatchGoal.isReversible, ExprPattern.isReversible, Bool.and_eq_true] at reversible
    have receiver := ihp reversible.1 (Expr.namedIn_this _) kept
    show (ExprPattern.expand c _).Yields _
    rw [ExprPattern.expand]
    refine receiver.bind ?_
    intro r hr
    refine (ExpansionContext.expandType_yields reversible.2).bind fun type _ => .pure ?_
    exact Expr.selectFrom_equiv_bare hr i name type (some id)
  | @newArray i element dims init tElement tDims tInit _ _ _ _ hElement hDims hInit ihElement
      ihDims ihInit =>
    rw [MatchGoal.isReversible, ExprPattern.isReversible, Bool.and_eq_true, Bool.and_eq_true]
      at reversible
    obtain ⟨⟨revElement, revDims⟩, revInit⟩ := reversible
    have first := ihElement revElement (fun e he => named.child (by simp_all [Expr.children]))
      (kept.trans (hInit.extends.trans hDims.extends))
    have second := ihDims revDims (fun e he => named.child (by simp_all [Expr.children]))
      (kept.trans hInit.extends)
    have third := ihInit revInit (fun e he => named.child (by simp_all [Expr.children])) kept
    show (ExprPattern.expand c _).Yields _
    rw [ExprPattern.expand]
    refine first.bind fun x hx => second.bind fun xs hxs => third.bind fun ys hys => .pure ?_
    exact .newArray _ i hx hxs hys
  | @parenBoth i p t _ _ hp ihp =>
    rw [MatchGoal.isReversible, ExprPattern.isReversible] at reversible
    have inner := ihp reversible (named.child (by simp [Expr.children])) kept
    show (ExprPattern.expand c _).Yields _
    rw [ExprPattern.expand]
    refine inner.bind fun r hr => .pure ?_
    exact .ofChildren [r] (.cons hr .nil) rfl
  | parenLeft hp ihp | receiverParen hp ihp =>
    rw [MatchGoal.isReversible, ExprPattern.isReversible] at reversible
    have inner := ihp reversible named kept
    show (ExprPattern.expand c _).Yields _
    rw [ExprPattern.expand]
    refine inner.bind fun r hr => .pure ?_
    exact .trans (.paren _ r) hr
  | @arrayType i p t _ _ hp ihp =>
    rw [MatchGoal.isReversible, ExprPattern.isReversible] at reversible
    have element := ihp reversible (named.child (by simp [Expr.children])) kept
    show (ExprPattern.expand c _).Yields _
    rw [ExprPattern.expand]
    refine element.bind fun r hr => .pure ?_
    exact .ofChildren [r] (.cons hr .nil) rfl
  | ofForm form hp ihp =>
    rw [MatchGoal.isReversible, ExprPattern.isReversible] at reversible
    show (ExprPattern.expand c _).Yields _
    rw [ExprPattern.expand]
    exact ihp reversible named kept
  | nil =>
    show (ExprPattern.expandList c []).Yields _
    rw [ExprPattern.expandList]
    exact .pure .nil
  | @repeatedRest name ts _ _ h =>
    show (ExprPattern.expandList c [.repeated name]).Yields _
    rw [ExprPattern.expandList, ExprPattern.expandList]
    refine (ExpansionContext.repeatedNamed_yields h kept).bind ?_
    intro rs hrs
    refine Expanding.Yields.bind (P := (· = [])) (.pure rfl) fun xs hxs => .pure ?_
    rw [hxs, List.append_nil]
    exact hrs
  | @cons p ps t ts _ _ _ single hp hps ihp ihps =>
    rw [MatchGoal.isReversible, ExprPattern.isReversibleList, Bool.and_eq_true] at reversible
    · have first := ihp reversible.1 (named _ List.mem_cons_self) (kept.trans hps.extends)
      have rest := ihps reversible.2 (fun e he => named e (List.mem_cons_of_mem _ he)) kept
      show (ExprPattern.expandList c (p :: ps)).Yields _
      rw [ExprPattern.expandList]
      · exact first.bind fun r hr => rest.bind fun rs hrs => .pure (.cons hr hrs)
      · exact fun name hname => single name hname
    · intro name hname _
      exact single name hname
  | absent =>
    show (ExprPattern.expandOption c none).Yields _
    rw [ExprPattern.expandOption]
    exact .pure .none
  | present hp ihp =>
    rw [MatchGoal.isReversible, ExprPattern.isReversibleOption] at reversible
    have inner := ihp reversible (named _ rfl) kept
    show (ExprPattern.expandOption c (some _)).Yields _
    rw [ExprPattern.expandOption]
    exact inner.bind fun r hr => .pure (.some hr)
  | noInit =>
    show (ExprPattern.expandInit c none).Yields _
    rw [ExprPattern.expandInit]
    exact .pure .none
  | someInit hps ihps =>
    rw [MatchGoal.isReversible, ExprPattern.isReversibleInit] at reversible
    have inner := ihps reversible named kept
    show (ExprPattern.expandInit c (some _)).Yields _
    rw [ExprPattern.expandInit]
    exact inner.bind fun r hr => .pure (.some hr)
  | @decl p d symbol a b e _ fresh declared hType hInit bound ihType ihInit =>
    rw [MatchGoal.isReversible, DeclPattern.isReversible, Bool.and_eq_true] at reversible
    have kept' : c.bindings.Extends e := kept.trans (Bindings.insertLocal_extends bound)
    have type := ihType reversible.1 (named.children _ List.mem_cons_self)
      (kept'.trans hInit.extends)
    have init := ihInit reversible.2
      (fun e he => named.children e (by simp_all [VarDecl.children])) kept'
    have written : p.nameIn c.bindings = d.name := by
      rw [DeclPattern.nameIn, kept.locals p.name _ (Bindings.lookup_insertLocal bound)]
      rfl
    show (DeclPattern.expand c p).Yields _
    refine type.bind fun r hr => init.bind fun x hx => .pure ?_
    exact ⟨written, hr, hx⟩
  | @block i ps ts _ _ hps ihps =>
    rw [MatchGoal.isReversible, StmtPattern.isReversible] at reversible
    have stmts := ihps reversible (fun s hs => named.stmt (by simpa [Stmt.children] using hs)) kept
    show (StmtPattern.expand c _).Yields _
    rw [StmtPattern.expand]
    refine stmts.bind fun rs hrs => .pure ?_
    exact .ofParts [] rs (by simp [Stmt.children]) (by simpa [Stmt.children] using hrs) rfl
  | @ifElse i cond yes no t u v _ _ _ _ hCond hYes hNo ihCond ihYes ihNo =>
    rw [MatchGoal.isReversible, StmtPattern.isReversible, Bool.and_eq_true, Bool.and_eq_true]
      at reversible
    obtain ⟨⟨revCond, revYes⟩, revNo⟩ := reversible
    have first := ihCond revCond (named.expr (by simp [Stmt.children]))
      (kept.trans (hNo.extends.trans hYes.extends))
    have second := ihYes revYes (named.stmt (by simp [Stmt.children])) (kept.trans hNo.extends)
    have third := ihNo revNo (fun s hs => named.stmt (by simp_all [Stmt.children])) kept
    show (StmtPattern.expand c _).Yields _
    rw [StmtPattern.expand]
    refine first.bind fun x hx => second.bind fun y hy => third.bind fun z hz => .pure ?_
    exact .ifElse _ i hx hy hz
  | whileLoop hCond hBody ihCond ihBody | synchronized hCond hBody ihCond ihBody =>
    rw [MatchGoal.isReversible, StmtPattern.isReversible, Bool.and_eq_true] at reversible
    have first := ihCond reversible.1 (named.expr (by simp [Stmt.children]))
      (kept.trans hBody.extends)
    have second := ihBody reversible.2 (named.stmt (by simp [Stmt.children])) kept
    show (StmtPattern.expand c _).Yields _
    rw [StmtPattern.expand]
    refine first.bind fun x hx => second.bind fun y hy => .pure ?_
    exact .ofParts [x] [y] (.cons hx .nil) (.cons hy .nil) rfl
  | doLoop hBody hCond ihBody ihCond =>
    rw [MatchGoal.isReversible, StmtPattern.isReversible, Bool.and_eq_true] at reversible
    have first := ihBody reversible.2 (named.stmt (by simp [Stmt.children]))
      (kept.trans hCond.extends)
    have second := ihCond reversible.1 (named.expr (by simp [Stmt.children])) kept
    show (StmtPattern.expand c _).Yields _
    rw [StmtPattern.expand]
    refine first.bind fun y hy => second.bind fun x hx => .pure ?_
    exact .ofParts [x] [y] (.cons hx .nil) (.cons hy .nil) rfl
  | @forLoop i init cond update body ts t us u _ _ _ _ _ hInit hCond hUpdate hBody ihInit ihCond
      ihUpdate ihBody =>
    rw [MatchGoal.isReversible, StmtPattern.isReversible, Bool.and_eq_true, Bool.and_eq_true,
      Bool.and_eq_true] at reversible
    obtain ⟨⟨⟨revInit, revCond⟩, revUpdate⟩, revBody⟩ := reversible
    have first := ihInit revInit (fun s hs => named.stmt (by simp [Stmt.children, hs]))
      (kept.trans (hBody.extends.trans (hUpdate.extends.trans hCond.extends)))
    have second := ihCond revCond (fun e he => named.expr (by simp_all [Stmt.children]))
      (kept.trans (hBody.extends.trans hUpdate.extends))
    have third := ihUpdate revUpdate (fun e he => named.expr (by simp [Stmt.children, he]))
      (kept.trans hBody.extends)
    have fourth := ihBody revBody (named.stmt (by simp [Stmt.children])) kept
    show (StmtPattern.expand c _).Yields _
    rw [StmtPattern.expand]
    refine first.bind fun ws hws => second.bind fun x hx => third.bind fun ys hys =>
      fourth.bind fun z hz => .pure ?_
    exact .forLoop _ i hws hx hys hz
  | @forEach i var iterable body d t u _ _ _ _ hVar hIterable hBody ihVar ihIterable ihBody =>
    rw [MatchGoal.isReversible, StmtPattern.isReversible, Bool.and_eq_true, Bool.and_eq_true]
      at reversible
    obtain ⟨⟨revVar, revIterable⟩, revBody⟩ := reversible
    have first := ihVar revVar (named.declaration rfl fun e he => by simp [Stmt.children, he])
      (kept.trans (hBody.extends.trans hIterable.extends))
    have second := ihIterable revIterable (named.expr (by simp [Stmt.children]))
      (kept.trans hBody.extends)
    have third := ihBody revBody (named.stmt (by simp [Stmt.children])) kept
    show (StmtPattern.expand c _).Yields _
    rw [StmtPattern.expand]
    refine first.bind fun x hx => second.bind fun y hy => third.bind fun z hz => .pure ?_
    exact .forEach _ i hx hy hz
  | @ret i value t _ _ hValue ihValue =>
    rw [MatchGoal.isReversible, StmtPattern.isReversible] at reversible
    have inner := ihValue reversible (fun e he => named.expr (by simp_all [Stmt.children])) kept
    show (StmtPattern.expand c _).Yields _
    rw [StmtPattern.expand]
    exact inner.bind fun r hr => .pure (.ret _ i hr)
  | raise hValue ihValue | exprStmt hValue ihValue =>
    rw [MatchGoal.isReversible, StmtPattern.isReversible] at reversible
    have inner := ihValue reversible (named.expr (by simp [Stmt.children])) kept
    show (StmtPattern.expand c _).Yields _
    rw [StmtPattern.expand]
    refine inner.bind fun r hr => .pure ?_
    exact .ofParts [r] [] (.cons hr .nil) .nil rfl
  | empty =>
    show (StmtPattern.expand c _).Yields _
    rw [StmtPattern.expand]
    exact .pure (.ofParts [] [] .nil .nil rfl)
  | @declare i p d _ _ hDecl ihDecl =>
    rw [MatchGoal.isReversible, StmtPattern.isReversible] at reversible
    have inner := ihDecl reversible
      (named.declaration rfl fun e he => by simp [Stmt.children, he]) kept
    show (StmtPattern.expand c _).Yields _
    rw [StmtPattern.expand]
    exact inner.bind fun r hr => .pure (.declare _ i hr)
  | noStmts =>
    show (StmtPattern.expandEach c []).Yields _
    rw [StmtPattern.expandEach]
    exact .pure .nil
  | consStmt hp hps ihp ihps =>
    rw [MatchGoal.isReversible, StmtPattern.isReversibleEach, Bool.and_eq_true] at reversible
    have first := ihp reversible.1 (named _ List.mem_cons_self) (kept.trans hps.extends)
    have rest := ihps reversible.2 (fun s hs => named s (List.mem_cons_of_mem _ hs)) kept
    show (StmtPattern.expandEach c (_ :: _)).Yields _
    rw [StmtPattern.expandEach]
    exact first.bind fun r hr => rest.bind fun rs hrs => .pure (.cons hr hrs)
  | noStmt =>
    show (StmtPattern.expandOption c none).Yields _
    rw [StmtPattern.expandOption]
    exact .pure .none
  | someStmt hp ihp =>
    rw [MatchGoal.isReversible, StmtPattern.isReversibleOption] at reversible
    have inner := ihp reversible (named _ rfl) kept
    show (StmtPattern.expandOption c (some _)).Yields _
    rw [StmtPattern.expandOption]
    exact inner.bind fun r hr => .pure (.some hr)

end Reproduction

/-- Matching without bindings binds local variables as the target names them. -/
theorem Matches.localsIn_of_empty {symbols : SymbolTable} {names : NamedSymbols} {g : MatchGoal}
    {b : Bindings} (h : Matches symbols g .empty b) (named : g.NamedIn names) :
    b.LocalsIn names := by
  refine h.localsIn named ?_
  intro name v hv
  exact absurd hv (by simp [Bindings.empty])

/-- A pattern that can be written back and that matched some code becomes code equivalent to
it, under the bindings of the match.  This holds for an expression and for a sequence of
statements; no policy and no pending import matters, and no import is added. -/
theorem expand_unify_equiv (c : MatchContext) (policy : ImportPolicy) :
    (∀ (p : ExprPattern) (target : Expr) (b : Bindings), p.isReversible c.table = true →
      NamesAgree target.namedSymbols → p.unify c.unit.symbols target .empty = some b →
      ∃ r, r.Equiv target ∧
        ∀ pending, (p.expand (c.expansion b policy)).run pending = (.ok r, pending)) ∧
    (∀ (ps : List StmtPattern) (targets : List Stmt) (b : Bindings),
      StmtPattern.isReversibleEach c.table ps = true →
      NamesAgree (targets.flatMap Stmt.namedSymbols) →
      StmtPattern.unifyEach c.unit.symbols ps targets .empty = some b →
      ∃ rs, List.Forall₂ Stmt.Equiv rs targets ∧
        ∀ pending,
          (StmtPattern.expandEach (c.expansion b policy) ps).run pending = (.ok rs, pending)) := by
  constructor
  · intro p target b reversible agree matched
    have derivation := p.matches_of_unify matched
    have named : (MatchGoal.expr p target).NamedIn target.namedSymbols := fun _ h => h
    exact derivation.reproduced (c := c.expansion b policy) agree
      (derivation.localsIn_of_empty named) reversible named (.refl b)
  · intro ps targets b reversible agree matched
    have derivation := StmtPattern.matches_of_unifyEach ps matched
    have named : (MatchGoal.stmts ps targets).NamedIn (targets.flatMap Stmt.namedSymbols) :=
      fun s hs pair hpair => List.mem_flatMap.mpr ⟨s, hs, hpair⟩
    exact derivation.reproduced (c := c.expansion b policy) agree
      (derivation.localsIn_of_empty named) reversible named (.refl b)

namespace Reversal

/-- A unit with one field `size` of a class `C`. -/
private def sizeUnit : CompilationUnit :=
  .ofDeclarations none [] [] (SymbolTable.empty.addField "C" "size" (.primitive .int) false).1

private def intInfo : NodeInfo := .ofType (.primitive .int)

/-- `x.size + (n)` matches `size + 1` and becomes an expression equivalent to it; `T v = e;
return v;` matches `final int k = 1; return k;` and becomes statements equivalent to it. -/
theorem expand_unify_equiv_size :
    (∃ r, r.Equiv (.binary intInfo .add (.ident intInfo "size" (some 0))
        (.literal intInfo (.int 1))) ∧
      ∀ pending, ((ExprPattern.binary .add
          (.select (.free "x") "size" (.primitive .int)) (.paren (.free "n"))).expand
        (MatchContext.expansion ⟨sizeUnit, .rootOnly⟩
          { free := [("x", .this (.ofType (.ofClass "C"))), ("n", .literal intInfo (.int 1))] }
          .direct)).run pending = (.ok r, pending)) ∧
    (∃ rs, List.Forall₂ Stmt.Equiv rs
        [.declare .synthetic ⟨"k", .primitiveType intInfo .int,
          some (.literal intInfo (.int 1)), some 7, true⟩,
          .ret .synthetic (some (.ident intInfo "k" (some 7)))] ∧
      ∀ pending, (StmtPattern.expandEach
        (MatchContext.expansion ⟨sizeUnit, .rootOnly⟩
          { free := [("e", .literal intInfo (.int 1))], locals := [("v", ⟨7, "k"⟩)] } .direct)
        [.declare ⟨"v", .primitiveType .int, some (.free "e")⟩,
          .ret (some (.localVar "v"))]).run pending = (.ok rs, pending)) := by
  obtain ⟨exprs, stmts⟩ := expand_unify_equiv ⟨sizeUnit, .rootOnly⟩ .direct
  refine ⟨exprs _ _ _ rfl ?_ rfl, stmts _ _ _ rfl ?_ rfl⟩
  · intro id n m hn hm
    simp [Expr.namedSymbols_eq, Expr.namedSymbol?, Expr.children] at hn hm
    rw [hn.2, hm.2]
  · intro id n m hn hm
    simp [Stmt.namedSymbols, Stmt.exprs_eq, Stmt.stmts_eq, StmtPart.nodes, StmtPart.inner,
      Stmt.children, VarDecl.children, Expr.nodes_eq, Expr.namedSymbol?, Expr.children,
      Stmt.declaration?, VarDecl.namedSymbol?] at hn hm
    grind

end Reversal

end JavaRefactor
