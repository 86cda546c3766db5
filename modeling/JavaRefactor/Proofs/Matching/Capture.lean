import JavaRefactor.Proofs.Matching.Sources

/-!
# Captured expressions and declared locals

A pattern of statements can declare locals of its own, and an expression that refers to one of
them must not be captured by a variable: outside the matched code the local is not known.
When a variable meets an expression, the matcher looks for references to the locals that are
bound so far.  A local is bound after its type and its initializer are matched.

`Stmt.steps` lists what the matcher meets in a statement, in its order: expressions to match
and locals to bind.  A match is a run through these steps (`StmtPattern.runs_of_matches`), and
a step only captures parts of the expressions that it matches, none of which refers to a local
that is bound already (`Meets`).  So an expression that is captured although it refers to a
bound local stands in front of where the local gets bound: before its declaration or in its
initializer (`StmtPattern.unifyEach_captures`).
-/

namespace JavaRefactor

/-! ### The steps of a target -/

/-- What the matcher meets in a target. -/
inductive TargetStep where
  /-- Expressions that are matched. -/
  | use (es : List Expr)
  /-- A local that is bound. -/
  | declare (id : SymbolId)

/-- The local of a declaration is bound behind its type and its initializer. -/
def VarDecl.steps (d : VarDecl) : List TargetStep :=
  [.use [d.type], .use d.init.toList] ++ d.symbol.toList.map .declare

namespace Stmt

mutual

/-- What the matcher meets in a statement, in the order of matching. -/
def steps : Stmt → List TargetStep
  | .block _ stmts => stepsOfEach stmts
  | .ifElse _ cond yes no => .use [cond] :: (steps yes ++ stepsOfOption no)
  | .whileLoop _ cond body => .use [cond] :: steps body
  | .doLoop _ body cond => steps body ++ [.use [cond]]
  | .forLoop _ init cond update body =>
    stepsOfEach init ++ (.use cond.toList :: .use update :: steps body)
  | .forEach _ var iterable body => var.steps ++ (.use [iterable] :: steps body)
  | .ret _ value => [.use value.toList]
  | .raise _ value | .expr _ value => [.use [value]]
  | .synchronized _ lock body => .use [lock] :: steps body
  | .empty _ => []
  | .declare _ decl => decl.steps

/-- What the matcher meets in several statements. -/
def stepsOfEach : List Stmt → List TargetStep
  | [] => []
  | s :: ss => steps s ++ stepsOfEach ss

/-- What the matcher meets in an optional statement. -/
def stepsOfOption : Option Stmt → List TargetStep
  | none => []
  | some s => steps s

end

end Stmt

/-- An expression stands in something that is matched in some steps. -/
def UsedIn (e : Expr) (steps : List TargetStep) : Prop :=
  ∃ es, .use es ∈ steps ∧ ∃ x ∈ es, e ∈ x.nodes

/-- An expression stands in something that is matched before a local is bound. -/
def UsedBefore (id : SymbolId) (e : Expr) (steps : List TargetStep) : Prop :=
  ∃ front back, steps = front ++ .declare id :: back ∧ UsedIn e front

section Steps

variable {e : Expr} {id : SymbolId} {steps : List TargetStep}

/-- What is used in some steps is used in those and more. -/
theorem UsedIn.append (h : UsedIn e steps) (more : List TargetStep) :
    UsedIn e (steps ++ more) := by
  obtain ⟨es, mem, found⟩ := h
  exact ⟨es, List.mem_append_left more mem, found⟩

/-- What is used before a local is bound is so whatever follows. -/
theorem UsedBefore.append (h : UsedBefore id e steps) (more : List TargetStep) :
    UsedBefore id e (steps ++ more) := by
  obtain ⟨front, back, rfl, used⟩ := h
  refine ⟨front, back ++ more, ?_, used⟩
  rw [List.append_assoc, List.cons_append]

end Steps

namespace Bindings

variable {a b c : Bindings} {name : String} {e : Expr} {es : List Expr} {id : SymbolId}

/-! ### What a match of expressions captures -/

/-- A free variable stands for an expression, or a repeated one for a list that has it. -/
def Captures (b : Bindings) (e : Expr) : Prop :=
  (∃ name, b.free.lookup name = some e) ∨
    ∃ name es, b.repeated.lookup name = some es ∧ e ∈ es

/-- None of the locals that are bound is referred to. -/
def Avoids (b : Bindings) (e : Expr) : Prop := ∀ id ∈ b.localSymbols, e.references id = false

/-- An expression that refers to any symbol stands in one of some others. -/
def StandsIn (es : List Expr) (e : Expr) : Prop :=
  ∀ id, e.references id = true → ∃ x ∈ es, e ∈ x.nodes

/-- What a match of some expressions does: it binds no local, and an expression that it
captures stands in one of them and does not refer to the locals that are bound. -/
structure Meets (es : List Expr) (a b : Bindings) : Prop where
  locals : b.locals = a.locals
  captures : ∀ e, b.Captures e → a.Captures e ∨ a.Avoids e ∧ StandsIn es e

/-- A match that binds nothing meets what it has to. -/
theorem Meets.refl (a : Bindings) : Meets es a a := ⟨rfl, fun _ h => Or.inl h⟩

/-- Whether the bound locals are avoided depends only on the locals. -/
theorem Avoids.of_locals (h : b.Avoids e) (same : b.locals = a.locals) : a.Avoids e := by
  unfold Avoids localSymbols at h
  rw [same] at h
  exact h

/-- Two matches in turn meet what both meet. -/
theorem Meets.trans (h : Meets es a b) (h' : Meets es b c) : Meets es a c := by
  refine ⟨h'.locals.trans h.locals, ?_⟩
  intro e he
  rcases h'.captures e he with he | ⟨avoids, inside⟩
  · exact h.captures e he
  · exact Or.inr ⟨avoids.of_locals h.locals, inside⟩

/-- What a free variable stands for after it meets an expression. -/
theorem free_of_matchFree {target : Expr} (h : a.matchFree name target = some b) {n : String}
    (he : b.free.lookup n = some e) :
    a.free.lookup n = some e ∨ e = target ∧ a.Avoids target := by
  obtain ⟨⟨-, avoids⟩, ⟨-, inserted⟩ | ⟨bound, -, -, rfl⟩⟩ := matchFree_eq_some h
  · obtain ⟨free, hfree, rfl⟩ := insertFree_eq_ok inserted
    rcases Assignments.lookup_of_insert? hfree he with he | ⟨-, rfl⟩
    · exact Or.inl he
    · refine Or.inr ⟨rfl, ?_⟩
      intro id hid
      exact Bool.eq_false_iff.mpr (List.any_eq_false.mp avoids id hid)
  · exact Or.inl he

/-- Matching a variable for one expression meets the expression. -/
theorem meets_of_matchFree {target : Expr} (inside : StandsIn es target)
    (h : a.matchFree name target = some b) : Meets es a b := by
  have kept : b.locals = a.locals ∧ b.repeated = a.repeated := by
    obtain ⟨-, ⟨-, inserted⟩ | ⟨bound, -, -, rfl⟩⟩ := matchFree_eq_some h
    · obtain ⟨free, -, rfl⟩ := insertFree_eq_ok inserted
      exact ⟨rfl, rfl⟩
    · exact ⟨rfl, rfl⟩
  refine ⟨kept.1, ?_⟩
  rintro e (⟨n, he⟩ | ⟨n, items, hitems, he⟩)
  · rcases free_of_matchFree h he with he | ⟨rfl, avoids⟩
    · exact Or.inl (Or.inl ⟨n, he⟩)
    · exact Or.inr ⟨avoids, inside⟩
  · rw [kept.2] at hitems
    exact Or.inl (Or.inr ⟨n, items, hitems, he⟩)

/-- Matching a type parameter captures no expression. -/
theorem meets_of_matchType {target : Expr} (h : a.matchType name target = some b) :
    Meets es a b := by
  obtain ⟨-, inserted⟩ | ⟨_, -, -, rfl⟩ := matchType_eq_some h
  · obtain ⟨types, -, rfl⟩ := insertType_eq_ok inserted
    exact ⟨rfl, fun e he => Or.inl he⟩
  · exact .refl _

/-- What a repeated variable takes from the targets. -/
theorem items_of_mapM {targets items : List Expr} (inside : ∀ t ∈ targets, StandsIn es t)
    (h : targets.mapM (a.repeatedItem name) = some items) :
    ∀ e ∈ items, a.Captures e ∨ a.Avoids e ∧ StandsIn es e := by
  intro e he
  obtain ⟨t, ht, taken⟩ := exists_of_mem_mapM h he
  obtain ⟨b, matched, found⟩ := Option.bind_eq_some_iff.mp taken
  rcases free_of_matchFree matched found with found | ⟨rfl, avoids⟩
  · exact Or.inl (Or.inl ⟨name, found⟩)
  · exact Or.inr ⟨avoids, inside _ ht⟩

/-- Matching a variable for several expressions meets the expressions. -/
theorem meets_of_matchRepeated {targets : List Expr} (inside : ∀ t ∈ targets, StandsIn es t)
    (h : a.matchRepeated name targets = some b) : Meets es a b := by
  obtain ⟨items, hitems, inserted⟩ := matchRepeated_eq_some h
  have taken := items_of_mapM inside hitems
  obtain ⟨repeated, hrepeated, rfl⟩ := insertRepeated_eq_ok inserted
  refine ⟨rfl, ?_⟩
  rintro e (⟨n, he⟩ | ⟨n, xs, hxs, he⟩)
  · exact Or.inl (Or.inl ⟨n, he⟩)
  · rcases Assignments.lookup_of_insert? hrepeated hxs with hxs | ⟨-, rfl⟩
    · exact Or.inl (Or.inr ⟨n, xs, hxs, he⟩)
    · exact taken e he

/-- A step of a match of expressions only captures what stands in them. -/
theorem meets_of_step (h : BindStep (StandsIn es) false a b) : Meets es a b := by
  cases h with
  | free he h => exact meets_of_matchFree (Expr.all_iff.mp he).1 h
  | type he h => exact meets_of_matchType h
  | repeated hes h => exact meets_of_matchRepeated (fun e he => (Expr.all_iff.mp (hes e he)).1) h
  | declare allowed h => exact absurd allowed (by simp)

end Bindings

open Bindings

/-- There is no symbol that `this` refers to. -/
theorem Expr.references_this (i : NodeInfo) (id : SymbolId) :
    (Expr.this i).references id = false := by
  rw [references, nodes_eq]
  rfl

/-- The nodes of expressions stand in them. -/
theorem Expr.all_standsIn {es : List Expr} {e : Expr} (he : e ∈ es) :
    e.All (StandsIn es) := fun _ hx _ _ => ⟨e, he, hx⟩

variable {symbols : SymbolTable}

/-- A match of expressions captures what stands in them. -/
theorem Matches.meets {es : List Expr} {g : MatchGoal} {a b : Bindings}
    (h : Matches symbols g a b) (silent : g.declares = false) (inside : g.All (StandsIn es)) :
    Meets es a b := by
  have implicit (owner : String) : StandsIn es (.this (.ofType (.ofClass owner))) := by
    intro id refers
    rw [Expr.references_this] at refers
    exact absurd refers (by simp)
  have run := h.steps implicit inside
  rw [silent] at run
  clear h inside
  induction run with
  | refl => exact .refl a
  | tail _ step ih => exact ih.trans (meets_of_step step)

/-- A match of an expression meets the expression. -/
theorem Matches.meets_expr {p : ExprPattern} {e : Expr} {a b : Bindings}
    (h : Matches symbols (.expr p e) a b) : Meets [e] a b :=
  h.meets rfl (Expr.all_standsIn List.mem_cons_self)

/-- A match of a list meets its expressions. -/
theorem Matches.meets_list {ps : List ExprPattern} {es : List Expr} {a b : Bindings}
    (h : Matches symbols (.list ps es) a b) : Meets es a b :=
  h.meets rfl fun _ he => Expr.all_standsIn he

/-- A match of an optional expression meets it if it is there. -/
theorem Matches.meets_option {p : Option ExprPattern} {e : Option Expr} {a b : Bindings}
    (h : Matches symbols (.option p e) a b) : Meets e.toList a b :=
  h.meets rfl fun _ he => Expr.all_standsIn (Option.mem_toList.mpr he)

/-! ### A match as a run through steps -/

/-- Bindings after some steps. -/
inductive Runs : List TargetStep → Bindings → Bindings → Prop where
  | nil {a : Bindings} : Runs [] a a
  | use {es : List Expr} {steps : List TargetStep} {a b c : Bindings} (h : Meets es a b)
      (rest : Runs steps b c) : Runs (.use es :: steps) a c
  | declare {name : String} {v : LocalBinding} {steps : List TargetStep} {a b c : Bindings}
      (h : a.insertLocal name v = .ok b) (rest : Runs steps b c) :
      Runs (.declare v.symbol :: steps) a c

namespace Runs

variable {steps more : List TargetStep} {a b c : Bindings}

/-- Steps side by side run one group after the other. -/
theorem append (h : Runs steps a b) (h' : Runs more b c) : Runs (steps ++ more) a c := by
  induction h with
  | nil => exact h'
  | use h _ ih => exact .use h (ih h')
  | declare h _ ih => exact .declare h (ih h')

/-- A match of expressions alone is one step. -/
theorem single {es : List Expr} (h : Meets es a b) : Runs [.use es] a b := .use h .nil

end Runs

/-- A match of a declaration binds the local behind its type and its initializer. -/
theorem DeclPattern.runs_of_matches {p : DeclPattern} {d : VarDecl} {a b : Bindings}
    (h : Matches symbols (.decl p d) a b) : Runs d.steps a b := by
  cases h with
  | @decl _ _ symbol _ _ c _ fresh declared hType hInit bound =>
    have last : Runs (d.symbol.toList.map .declare) c b := by
      rw [declared]
      exact .declare bound .nil
    exact .use hType.meets_expr (.use hInit.meets_option last)

namespace StmtPattern

mutual

/-- A match of a statement runs through its steps. -/
theorem runs_of_matches : (p : StmtPattern) → {s : Stmt} → {a b : Bindings} →
    Matches symbols (.stmt p s) a b → Runs s.steps a b
  | .block ps, _, _, _, .block h => runs_of_matchesEach ps h
  | .ifElse _ yes no, _, _, _, .ifElse hCond hYes hNo =>
    .use hCond.meets_expr ((runs_of_matches yes hYes).append (runs_of_matchesOption no hNo))
  | .whileLoop _ body, _, _, _, .whileLoop hCond hBody =>
    .use hCond.meets_expr (runs_of_matches body hBody)
  | .doLoop body _, _, _, _, .doLoop hBody hCond =>
    (runs_of_matches body hBody).append (.single hCond.meets_expr)
  | .forLoop init _ _ body, _, _, _, .forLoop hInit hCond hUpdate hBody =>
    (runs_of_matchesEach init hInit).append
      (.use hCond.meets_option (.use hUpdate.meets_list (runs_of_matches body hBody)))
  | .forEach _ _ body, _, _, _, .forEach hVar hIterable hBody =>
    (DeclPattern.runs_of_matches hVar).append
      (.use hIterable.meets_expr (runs_of_matches body hBody))
  | .ret _, _, _, _, .ret h => .single h.meets_option
  | .raise _, _, _, _, .raise h => .single h.meets_expr
  | .synchronized _ body, _, _, _, .synchronized hLock hBody =>
    .use hLock.meets_expr (runs_of_matches body hBody)
  | .expr _, _, _, _, .exprStmt h => .single h.meets_expr
  | .empty, _, _, _, .empty => .nil
  | .declare _, _, _, _, .declare h => DeclPattern.runs_of_matches h

theorem runs_of_matchesEach : (ps : List StmtPattern) → {ss : List Stmt} → {a b : Bindings} →
    Matches symbols (.stmts ps ss) a b → Runs (Stmt.stepsOfEach ss) a b
  | [], _, _, _, .noStmts => .nil
  | p :: ps, _, _, _, .consStmt hp hps =>
    (runs_of_matches p hp).append (runs_of_matchesEach ps hps)

theorem runs_of_matchesOption : (p : Option StmtPattern) → {s : Option Stmt} →
    {a b : Bindings} → Matches symbols (.stmtOption p s) a b → Runs (Stmt.stepsOfOption s) a b
  | none, _, _, _, .noStmt => .nil
  | some p, _, _, _, .someStmt h => runs_of_matches p h

end

end StmtPattern

/-! ### Where captured expressions come from -/

/-- After some steps, a captured expression that refers to a symbol stands in what was matched,
and if the symbol is a bound local, in what was matched before it was bound. -/
structure Origins (done : List TargetStep) (b : Bindings) : Prop where
  used : ∀ e, b.Captures e → ∀ id, e.references id = true → UsedIn e done
  before : ∀ e, b.Captures e → ∀ id ∈ b.localSymbols, e.references id = true →
    UsedBefore id e done

/-- Before all steps nothing is bound. -/
theorem origins_empty : Origins [] .empty := by
  have nothing (e : Expr) : ¬ Bindings.empty.Captures e := by
    rintro (⟨n, he⟩ | ⟨n, es, hes, -⟩)
    · exact absurd he (by simp [Bindings.empty])
    · exact absurd hes (by simp [Bindings.empty])
  exact ⟨fun e he => absurd he (nothing e), fun e he => absurd he (nothing e)⟩

namespace Origins

variable {done steps : List TargetStep} {a b : Bindings}

/-- A match of expressions does not capture references to bound locals. -/
theorem use {es : List Expr} (h : Origins done a) (meets : Meets es a b) :
    Origins (done ++ [.use es]) b := by
  constructor
  · intro e he id refers
    rcases meets.captures e he with he | ⟨-, inside⟩
    · exact (h.used e he id refers).append _
    · exact ⟨es, List.mem_append_right done List.mem_cons_self, inside id refers⟩
  · intro e he id hid refers
    have hid : id ∈ a.localSymbols := by
      rw [localSymbols, ← meets.locals]
      exact hid
    rcases meets.captures e he with he | ⟨avoids, -⟩
    · exact (h.before e he id hid refers).append _
    · rw [avoids id hid] at refers
      exact absurd refers (by simp)

/-- What is captured when a local is bound was matched before. -/
theorem declare {name : String} {v : LocalBinding} (h : Origins done a)
    (bound : a.insertLocal name v = .ok b) : Origins (done ++ [.declare v.symbol]) b := by
  obtain ⟨locals, hlocals, rfl⟩ := insertLocal_eq_ok bound
  constructor
  · intro e he id refers
    exact (h.used e he id refers).append _
  · intro e he id hid refers
    have split : id ∈ a.localSymbols ∨ id = v.symbol := by
      obtain ⟨-, rfl⟩ := Assignments.eq_append_of_insert? hlocals
      simpa [localSymbols] using hid
    rcases split with hid | rfl
    · exact (h.before e he id hid refers).append _
    · exact ⟨done, [], rfl, h.used e he v.symbol refers⟩

/-- The origins of what is bound are kept by steps that run. -/
theorem runs (h : Origins done a) (run : Runs steps a b) : Origins (done ++ steps) b := by
  induction run generalizing done with
  | nil =>
    rw [List.append_nil]
    exact h
  | use meets _ ih =>
    rw [List.append_cons]
    exact ih (h.use meets)
  | declare bound _ ih =>
    rw [List.append_cons]
    exact ih (h.declare bound)

end Origins

/-- An expression that a match of statements captures does not refer to a local that the match
binds, unless it stands in what is matched before the local is bound: in front of the
declaration or in it. -/
theorem StmtPattern.unifyEach_captures {ps : List StmtPattern} {ss : List Stmt} {b : Bindings}
    (h : unifyEach symbols ps ss .empty = some b) {e : Expr} (captured : b.Captures e)
    {id : SymbolId} (bound : id ∈ b.localSymbols) :
    e.references id = false ∨ UsedBefore id e (Stmt.stepsOfEach ss) := by
  have origins : Origins (Stmt.stepsOfEach ss) b :=
    origins_empty.runs (runs_of_matchesEach ps (matches_of_unifyEach ps h))
  cases refers : e.references id with
  | false => exact Or.inl rfl
  | true => exact Or.inr (origins.before e captured id bound refers)

/-! ### A declaration and what comes after it -/

private def intNode : NodeInfo := .ofType (.primitive .int)

/-- `int t = …;`, where the local `t` has the symbol 0. -/
private def declareT (init : Expr) : Stmt :=
  .declare .synthetic ⟨"t", .primitiveType intNode .int, some init, some 0, false⟩

private def declareTmp : StmtPattern :=
  .declare ⟨"tmp", .primitiveType .int, some (.free "init")⟩

/-- `int t = 1; y = 2;`. -/
private def declareAndAssign : List Stmt :=
  [declareT (.ofLiteral (.int 1)),
    .expr .synthetic (.assign intNode (.ident intNode "y" (some 1)) (.ofLiteral (.int 2)))]

private def tmpThenAssign : List StmtPattern :=
  [declareTmp, .expr (.assign (.free "target") (.free "value"))]

/-- The initializer is captured before the local is bound, and the parts of the assignment
after it. -/
theorem unifyEach_captures_assign :
    ∃ b, StmtPattern.unifyEach .empty tmpThenAssign declareAndAssign .empty = some b ∧
      0 ∈ b.localSymbols ∧ ∀ e, b.Captures e →
        e.references 0 = false ∨ UsedBefore 0 e (Stmt.stepsOfEach declareAndAssign) := by
  have locals : (StmtPattern.unifyEach .empty tmpThenAssign declareAndAssign .empty).map
      localSymbols = some [0] := by
    decide +kernel
  obtain ⟨b, matched, symbols⟩ := Option.map_eq_some_iff.mp locals
  have bound : 0 ∈ b.localSymbols := by
    rw [symbols]
    exact List.mem_cons_self
  exact ⟨b, matched, bound, fun e he => StmtPattern.unifyEach_captures matched he bound⟩

/-- `t = 1`. -/
private def assignT : Expr :=
  .assign intNode (.ident intNode "t" (some 0)) (.ofLiteral (.int 1))

private def afterOwn : Bindings where
  free := [("init", assignT)]
  locals := [("tmp", ⟨0, "t"⟩)]

/-- In `int t = (t = 1);` the initializer refers to the local that it initializes, and it is
captured all the same: it stands in the declaration itself. -/
theorem unifyEach_ownInitializer :
    StmtPattern.unifyEach .empty [declareTmp] [declareT assignT] .empty = some afterOwn ∧
      afterOwn.Captures assignT ∧ 0 ∈ afterOwn.localSymbols ∧ assignT.references 0 = true := by
  refine ⟨rfl, Or.inl ⟨"init", rfl⟩, ?_, ?_⟩
  · decide
  · decide +kernel

end JavaRefactor
