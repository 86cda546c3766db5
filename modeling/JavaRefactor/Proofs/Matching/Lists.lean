import JavaRefactor.Proofs.Matching.Variables

/-!
# Lists with a repeated variable

Patterns of a list are matched in turn, each against the target in its place
(`ExprPattern.unifyInTurn`).  A repeated variable at the end takes the targets that are left.  It
tries each of them like a free variable of its name and forgets what that binds, so what it asks
of a target is only that a variable may stand for it (`Bindings.MayCapture`), as long as no free
variable of the name is bound (`Bindings.matchRepeated_eq_some_iff`).

Without a repeated variable there must be as many targets as patterns, with one at the end at
least as many as patterns before it, and with one anywhere else nothing matches
(`ExprPattern.unifyList_tail`).
-/

namespace JavaRefactor

/-- A name that is not bound can be bound. -/
theorem Assignments.insert?_of_unbound {α : Type} {entries : Assignments α} {name : String}
    (unbound : entries.lookup name = none) (value : α) :
    entries.insert? name value = some (entries ++ [(name, value)]) := by
  rw [insert?, unbound]

namespace Bindings

variable {a b : Bindings} {name : String} {e : Expr} {es : List Expr}

/-- Whether a variable may stand for an expression: `super` is excluded, and so is what refers
to a local that the pattern has declared. -/
def MayCapture (b : Bindings) (e : Expr) : Prop :=
  e.form ≠ .super ∧ ∀ symbol ∈ b.localSymbols, e.references symbol = false

/-- A free variable that is not bound takes what a variable may stand for. -/
theorem matchFree_of_unbound (unbound : a.free.lookup name = none) :
    a.matchFree name e = some b ↔
      a.MayCapture e ∧ b = { a with free := a.free ++ [(name, e)] } := by
  constructor
  · intro h
    obtain ⟨⟨form, locals⟩, ⟨-, inserted⟩ | ⟨bound, hbound, -⟩⟩ := matchFree_eq_some h
    · obtain ⟨free, hfree, rfl⟩ := insertFree_eq_ok inserted
      obtain ⟨-, rfl⟩ := Assignments.eq_append_of_insert? hfree
      exact ⟨⟨form, by simpa using locals⟩, rfl⟩
    · rw [unbound] at hbound
      exact absurd hbound (by simp)
  · rintro ⟨⟨form, locals⟩, rfl⟩
    have allowed : ¬(decide (e.form = .super) || a.localSymbols.any e.references) = true := by
      simpa [form] using locals
    rw [matchFree, if_neg allowed, unbound]
    simp [insertFree, Assignments.insert?_of_unbound unbound, Except.toOption]

/-- What a repeated variable takes from a target is the target itself. -/
theorem repeatedItem_eq_some_iff (unbound : a.free.lookup name = none) {item : Expr} :
    a.repeatedItem name e = some item ↔ a.MayCapture e ∧ item = e := by
  have own : (a.free ++ [(name, e)]).lookup name = some e :=
    Assignments.lookup_insert?_self (Assignments.insert?_of_unbound unbound e)
  constructor
  · intro h
    obtain ⟨b, matched, found⟩ := Option.bind_eq_some_iff.mp h
    obtain ⟨may, rfl⟩ := (matchFree_of_unbound unbound).mp matched
    exact ⟨may, Option.some.inj (found.symm.trans own)⟩
  · rintro ⟨may, rfl⟩
    exact Option.bind_eq_some_iff.mpr ⟨_, (matchFree_of_unbound unbound).mpr ⟨may, rfl⟩, own⟩

/-- A repeated variable takes all targets, in their order, if a variable may stand for each. -/
theorem matchRepeated_eq_some_iff (unbound : a.free.lookup name = none) :
    a.matchRepeated name es = some b ↔
      a.repeated.lookup name = none ∧ (∀ e ∈ es, a.MayCapture e) ∧
        b = { a with repeated := a.repeated ++ [(name, es)] } := by
  constructor
  · intro h
    obtain ⟨items, read, inserted⟩ := matchRepeated_eq_some h
    have each : List.Forall₂ (fun e item => a.MayCapture e ∧ e = item) es items :=
      (mapM_eq_some_iff.mp read).imp fun _ _ h =>
        ((repeatedItem_eq_some_iff unbound).mp h).imp_right Eq.symm
    obtain ⟨may, same⟩ := (List.forall₂_and_left _ _).mp each
    obtain rfl : es = items := List.forall₂_eq_eq_eq ▸ same
    obtain ⟨repeated, hrepeated, rfl⟩ := insertRepeated_eq_ok inserted
    obtain ⟨fresh, rfl⟩ := Assignments.eq_append_of_insert? hrepeated
    exact ⟨fresh, may, rfl⟩
  · rintro ⟨fresh, may, rfl⟩
    have read : es.mapM (a.repeatedItem name) = some es := by
      rw [mapM_eq_some_iff, List.forall₂_same]
      intro e he
      exact (repeatedItem_eq_some_iff unbound).mpr ⟨may e he, rfl⟩
    simp [matchRepeated, read, insertRepeated, Assignments.insert?_of_unbound fresh,
      Except.toOption]

end Bindings

namespace ExprPattern

variable {symbols : SymbolTable} {a b : Bindings}

/-- The bindings extended by matching patterns one after the other, each against a target of its
own. -/
def unifyInTurn (symbols : SymbolTable) (pairs : List (ExprPattern × Expr)) (b : Bindings) :
    Option Bindings :=
  pairs.foldlM (fun b pair => pair.1.unify symbols pair.2 b) b

/-- Patterns are matched in turn, the first one first. -/
theorem unifyInTurn_cons {p : ExprPattern} {e : Expr} {pairs : List (ExprPattern × Expr)} :
    unifyInTurn symbols ((p, e) :: pairs) b
      = (p.unify symbols e b).bind (unifyInTurn symbols pairs) :=
  List.foldlM_cons

/-- A pattern in front of others takes the first target unless it is repeated. -/
theorem unifyList_cons {p : ExprPattern} (single : ∀ name, p ≠ .repeated name)
    {ps : List ExprPattern} {e : Expr} {es : List Expr} :
    unifyList symbols (p :: ps) (e :: es) b
      = (p.unify symbols e b).bind (unifyList symbols ps es) := by
  rw [unifyList] <;> simp_all

/-- A pattern for one expression does not match where there is none. -/
theorem unifyList_cons_nil {p : ExprPattern} (single : ∀ name, p ≠ .repeated name)
    {ps : List ExprPattern} : unifyList symbols (p :: ps) [] b = none := by
  rw [unifyList] <;> simp_all

/-- A repeated variable at the end takes all expressions that are left. -/
theorem unifyList_repeated {name : String} {es : List Expr} :
    unifyList symbols [.repeated name] es b = b.matchRepeated name es := by
  rw [unifyList]

/-- A free variable that is not bound and not used in a pattern is not bound by a match. -/
theorem unbound_of_unify {p : ExprPattern} {e : Expr} {name : String}
    (unused : .free name ∉ p.vars) (unbound : a.free.lookup name = none)
    (h : p.unify symbols e a = some b) : b.free.lookup name = none := by
  by_contra bound
  obtain ⟨value, hvalue⟩ := Option.ne_none_iff_exists'.mp bound
  rcases (p.matches_of_unify h).binds.within _ (Bindings.free_mem_keys hvalue) with old | new
  · have names : name ∈ a.free.map Prod.fst := by simpa [Bindings.keys_eq] using old
    obtain ⟨value, hvalue⟩ := Assignments.mem_map_fst_iff.mp names
    rw [unbound] at hvalue
    exact absurd hvalue (by simp)
  · exact unused new

/-- A list of patterns for single expressions matches as many targets, in turn. -/
theorem unifyList_eq_some_iff {ps : List ExprPattern}
    (single : ∀ p ∈ ps, ∀ name, p ≠ .repeated name) {es : List Expr} :
    unifyList symbols ps es a = some b ↔
      ps.length = es.length ∧ unifyInTurn symbols (ps.zip es) a = some b := by
  induction ps generalizing es a with
  | nil =>
    cases es with
    | nil => simp [unifyList, unifyInTurn]
    | cons e es => simp [unifyList]
  | cons p ps ih =>
    obtain ⟨first, others⟩ := List.forall_mem_cons.mp single
    cases es with
    | nil => simp [unifyList_cons_nil first]
    | cons e es =>
      rw [unifyList_cons first, List.zip_cons_cons, unifyInTurn_cons, List.length_cons,
        List.length_cons, Nat.add_right_cancel_iff]
      cases p.unify symbols e a with
      | none => simp
      | some c => simpa using ih others

/-- A repeated variable in front of other patterns does not match, whatever comes before it. -/
theorem unifyList_repeated_cons (front : List ExprPattern) (name : String) (p : ExprPattern)
    (back : List ExprPattern) (es : List Expr) (a : Bindings) :
    unifyList symbols (front ++ .repeated name :: p :: back) es a = none := by
  induction front generalizing es a with
  | nil => simp [unifyList]
  | cons q front ih =>
    by_cases single : ∀ name, q ≠ .repeated name
    · cases es with
      | nil => exact unifyList_cons_nil single
      | cons e es =>
        rw [List.cons_append, unifyList_cons single]
        cases q.unify symbols e a with
        | none => rfl
        | some c => exact ih es c
    · -- An earlier repeated variable is followed by this one.
      obtain ⟨other, rfl⟩ : ∃ other, q = .repeated other := by simpa using single
      cases front with
      | nil => simp [unifyList]
      | cons r front => simp [unifyList]

/-- Patterns for single expressions with a repeated variable behind them match the first targets
in turn, and the variable takes the others. -/
theorem unifyList_append_repeated {ps : List ExprPattern}
    (single : ∀ p ∈ ps, ∀ name, p ≠ .repeated name) {name : String}
    (unused : ∀ p ∈ ps, .free name ∉ p.vars) (unbound : a.free.lookup name = none)
    {es : List Expr} :
    unifyList symbols (ps ++ [.repeated name]) es a = some b ↔
      ps.length ≤ es.length ∧ ∃ c, unifyInTurn symbols (ps.zip es) a = some c ∧
        c.repeated.lookup name = none ∧ (∀ e ∈ es.drop ps.length, c.MayCapture e) ∧
          b = { c with repeated := c.repeated ++ [(name, es.drop ps.length)] } := by
  induction ps generalizing es a with
  | nil =>
    rw [List.nil_append, unifyList_repeated, Bindings.matchRepeated_eq_some_iff unbound]
    simp [unifyInTurn]
  | cons p ps ih =>
    obtain ⟨first, others⟩ := List.forall_mem_cons.mp single
    obtain ⟨unusedFirst, unusedOthers⟩ := List.forall_mem_cons.mp unused
    cases es with
    | nil => simp [unifyList_cons_nil first]
    | cons e es =>
      rw [List.cons_append, unifyList_cons first, List.zip_cons_cons, unifyInTurn_cons,
        List.length_cons, List.length_cons, Nat.add_le_add_iff_right, List.drop_succ_cons]
      cases matched : p.unify symbols e a with
      | none => simp
      | some c =>
        have still := unbound_of_unify unusedFirst unbound matched
        simpa using ih others unusedOthers still

/-- What a list of patterns matches.  Let patterns for single expressions be followed by a
repeated variable that is neither used in them as a free variable (inside parentheses, say) nor
bound as one.  Then there are at least as many targets as these patterns, which match the first
targets in turn.  Under the bindings that this gives, the variable is not bound yet and may stand
for each of the other targets; it is bound to them in their order, and nothing else changes.
A repeated variable with a pattern behind it never matches, and without one there are exactly as
many targets as patterns. -/
theorem unifyList_tail (symbols : SymbolTable) (es : List Expr) (a : Bindings) :
    (∀ (ps : List ExprPattern) (name : String) (b : Bindings),
      (∀ p ∈ ps, ∀ other, p ≠ .repeated other) → (∀ p ∈ ps, .free name ∉ p.vars) →
        a.free.lookup name = none →
        (unifyList symbols (ps ++ [.repeated name]) es a = some b ↔
          ps.length ≤ es.length ∧ ∃ c, unifyInTurn symbols (ps.zip es) a = some c ∧
            c.repeated.lookup name = none ∧ (∀ e ∈ es.drop ps.length, c.MayCapture e) ∧
              b = { c with repeated := c.repeated ++ [(name, es.drop ps.length)] })) ∧
    (∀ (front : List ExprPattern) (name : String) (p : ExprPattern) (back : List ExprPattern),
      unifyList symbols (front ++ .repeated name :: p :: back) es a = none) ∧
    ∀ (ps : List ExprPattern) (b : Bindings), (∀ p ∈ ps, ∀ name, p ≠ .repeated name) →
      unifyList symbols ps es a = some b → ps.length = es.length := by
  refine ⟨?_, ?_, ?_⟩
  · intro ps name b single unused unbound
    exact unifyList_append_repeated single unused unbound
  · intro front name p back
    exact unifyList_repeated_cons front name p back es a
  · intro ps b single h
    exact ((unifyList_eq_some_iff single).mp h).1

/-- An argument in code. -/
private def targetNamed (name : String) : Expr := .ident (.ofType .unknown) name none

/-- Of three arguments a variable takes the first and a repeated one the others; of one argument
it leaves none. -/
theorem unifyList_tail_three :
    unifyList .empty [.free "first", .repeated "rest"]
        [targetNamed "x", targetNamed "y", targetNamed "z"] .empty =
      some
        { free := [("first", targetNamed "x")]
          repeated := [("rest", [targetNamed "y", targetNamed "z"])] } ∧
    unifyList .empty [.free "first"] [targetNamed "x"] .empty =
        some { free := [("first", targetNamed "x")] } ∧
      [ExprPattern.free "first"].length = [targetNamed "x"].length := by
  have matched : unifyList .empty [.free "first"] [targetNamed "x"] .empty =
      some { free := [("first", targetNamed "x")] } := rfl
  refine ⟨?_, matched, (unifyList_tail .empty [targetNamed "x"] .empty).2.2 _ _ (by simp) matched⟩
  refine ((unifyList_tail .empty _ .empty).1 [.free "first"] "rest" _ ?_ ?_ rfl).mpr ?_
  · simp
  · simp [vars]
  · refine ⟨by simp, _, rfl, rfl, ?_, rfl⟩
    intro e he
    have named : e = targetNamed "y" ∨ e = targetNamed "z" := by simpa using he
    rcases named with rfl | rfl
    · exact ⟨by decide, by simp [Bindings.localSymbols, Bindings.empty]⟩
    · exact ⟨by decide, by simp [Bindings.localSymbols, Bindings.empty]⟩

end ExprPattern

end JavaRefactor
