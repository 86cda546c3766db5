import JavaRefactor.Proofs.Matching.Derivation
import JavaRefactor.Proofs.Template.Accepted
import Mathlib.Logic.Relation

/-!
# Where bindings come from

Matching binds variables to what stands in the target, and to a `this` for a receiver that is
left out.  So a property of all nodes of the target is one of all nodes that bindings hold
(`Matches.all`, `ExpressionTemplate.match?_all`).
-/

namespace JavaRefactor

/-- All nodes of an expression have a property. -/
def Expr.All (P : Expr → Prop) (e : Expr) : Prop := ∀ x ∈ e.nodes, P x

/-- All expressions inside a statement have a property. -/
def Stmt.All (P : Expr → Prop) (s : Stmt) : Prop := ∀ x ∈ s.exprs, P x

variable {P : Expr → Prop}

/-- A property holds in an expression if it holds at the root and in all children. -/
theorem Expr.all_iff {e : Expr} : e.All P ↔ P e ∧ ∀ c ∈ e.children, c.All P := by
  rw [All, nodes_eq]
  refine ⟨fun h => ⟨h e List.mem_cons_self, fun c hc x hx =>
    h x (List.mem_cons_of_mem e (List.mem_flatMap.mpr ⟨c, hc, hx⟩))⟩, ?_⟩
  intro h x hx
  rcases List.mem_cons.mp hx with rfl | hx
  · exact h.1
  · obtain ⟨c, hc, hx⟩ := List.mem_flatMap.mp hx
    exact h.2 c hc x hx

/-- What holds in an expression holds in its children. -/
theorem Expr.All.child {e c : Expr} (h : e.All P) (hc : c ∈ e.children) : c.All P :=
  (all_iff.mp h).2 c hc

/-- What holds in an expression holds in it without parentheses. -/
theorem Expr.All.skipParens {e : Expr} (h : e.All P) : e.skipParens.All P := by
  induction e using skipParens.induct with
  | case1 i inner ih => exact ih (h.child List.mem_cons_self)
  | case2 e other =>
    rw [Expr.skipParens]
    · exact h
    · exact other

/-- What holds in a statement holds in its expressions. -/
theorem Stmt.All.expr {s : Stmt} {e : Expr} (h : s.All P) (he : .expr e ∈ s.children) :
    e.All P := by
  intro x hx
  refine h x ?_
  rw [exprs_eq]
  exact List.mem_flatMap.mpr ⟨.expr e, he, hx⟩

/-- What holds in a statement holds in its parts. -/
theorem Stmt.All.stmt {s t : Stmt} (h : s.All P) (ht : .stmt t ∈ s.children) : t.All P := by
  intro x hx
  refine h x ?_
  rw [exprs_eq]
  exact List.mem_flatMap.mpr ⟨.stmt t, ht, hx⟩

/-! ### Bindings -/

namespace Bindings

/-- All nodes of what the variables stand for have a property. -/
structure All (P : Expr → Prop) (b : Bindings) : Prop where
  free : ∀ name e, b.free.lookup name = some e → e.All P
  types : ∀ name type e, b.types.lookup name = some ⟨type, some e⟩ → e.All P
  repeated : ∀ name es, b.repeated.lookup name = some es → ∀ e ∈ es, e.All P

/-- Bindings that hold no expression hold none without the property. -/
theorem all_empty : empty.All P :=
  ⟨fun _ _ h => absurd h (by simp [empty]), fun _ _ _ h => absurd h (by simp [empty]),
    fun _ _ h => absurd h (by simp [empty])⟩

variable {a b : Bindings} {name : String} {e : Expr} {es : List Expr}

/-- Matching a variable for one expression adds that expression at most. -/
theorem All.matchFree (ha : a.All P) (he : e.All P) (h : a.matchFree name e = some b) :
    b.All P := by
  obtain ⟨-, ⟨-, inserted⟩ | ⟨bound, -, -, rfl⟩⟩ := matchFree_eq_some h
  · obtain ⟨free, hfree, rfl⟩ := insertFree_eq_ok inserted
    refine ⟨?_, ha.types, ha.repeated⟩
    intro n x hx
    rcases Assignments.lookup_of_insert? hfree hx with hx | ⟨-, rfl⟩
    · exact ha.free n x hx
    · exact he
  · exact ha

/-- Binding a type parameter adds at most the expression that it was found in. -/
theorem All.insertType {type : TypeBinding} (ha : a.All P)
    (he : ∀ x, type.witness = some x → x.All P) (h : a.insertType name type = .ok b) :
    b.All P := by
  obtain ⟨types, htypes, rfl⟩ := insertType_eq_ok h
  refine ⟨ha.free, ?_, ha.repeated⟩
  intro n t x hx
  rcases Assignments.lookup_of_insert? htypes hx with hx | ⟨-, rfl⟩
  · exact ha.types n t x hx
  · exact he x rfl

/-- Matching a type parameter adds at most the expression that it meets. -/
theorem All.matchType (ha : a.All P) (he : e.All P) (h : a.matchType name e = some b) :
    b.All P := by
  obtain ⟨-, inserted⟩ | ⟨_, -, -, rfl⟩ := matchType_eq_some h
  · refine ha.insertType ?_ inserted
    intro x hx
    rw [← Option.some.inj hx]
    exact he
  · exact ha

/-- Matching a variable for several expressions adds those at most. -/
theorem All.matchRepeated (ha : a.All P) (hes : ∀ e ∈ es, e.All P)
    (h : a.matchRepeated name es = some b) : b.All P := by
  obtain ⟨items, hitems, inserted⟩ := matchRepeated_eq_some h
  have taken : ∀ x ∈ items, x.All P := by
    intro x hx
    obtain ⟨e, he, taken⟩ := exists_of_mem_mapM hitems hx
    obtain ⟨_, matched, found⟩ := Option.bind_eq_some_iff.mp taken
    exact (ha.matchFree (hes e he) matched).free name x found
  obtain ⟨repeated, hrepeated, rfl⟩ := insertRepeated_eq_ok inserted
  refine ⟨ha.free, ha.types, ?_⟩
  intro n xs hxs
  rcases Assignments.lookup_of_insert? hrepeated hxs with hxs | ⟨-, rfl⟩
  · exact ha.repeated n xs hxs
  · exact taken

end Bindings

/-! ### Matches -/

/-- All expressions that a goal is about have a property. -/
def MatchGoal.All (P : Expr → Prop) : MatchGoal → Prop
  | expr _ e | receiver _ e => e.All P
  | list _ es => ∀ e ∈ es, e.All P
  | option _ e => ∀ x ∈ e, x.All P
  | init _ es => ∀ xs ∈ es, ∀ x ∈ xs, x.All P
  | decl _ d => ∀ e ∈ d.children, e.All P
  | stmt _ s => s.All P
  | stmts _ ss => ∀ s ∈ ss, s.All P
  | stmtOption _ s => ∀ t ∈ s, t.All P

/-- Whether a goal can bind local variables. -/
def MatchGoal.declares : MatchGoal → Bool
  | expr .. | list .. | option .. | init .. | receiver .. => false
  | decl .. | stmt .. | stmts .. | stmtOption .. => true

/-- A step of a match: a variable meets expressions whose nodes have a property, or a local
variable is declared where this is allowed. -/
inductive BindStep (P : Expr → Prop) (declares : Bool) : Bindings → Bindings → Prop where
  | free {name : String} {e : Expr} {a b : Bindings} (he : e.All P)
      (h : a.matchFree name e = some b) : BindStep P declares a b
  | type {name : String} {e : Expr} {a b : Bindings} (he : e.All P)
      (h : a.matchType name e = some b) : BindStep P declares a b
  | repeated {name : String} {es : List Expr} {a b : Bindings} (hes : ∀ e ∈ es, e.All P)
      (h : a.matchRepeated name es = some b) : BindStep P declares a b
  | declare {name : String} {v : LocalBinding} {a b : Bindings} (allowed : declares = true)
      (h : a.insertLocal name v = .ok b) : BindStep P declares a b

/-- Allowing declarations allows more. -/
theorem BindStep.allow {a b : Bindings} (h : BindStep P false a b) : BindStep P true a b := by
  cases h with
  | free he h => exact .free he h
  | type he h => exact .type he h
  | repeated hes h => exact .repeated hes h
  | declare allowed h => exact .declare rfl h

/-- Some steps, one after the other. -/
abbrev BindSteps (P : Expr → Prop) (declares : Bool) : Bindings → Bindings → Prop :=
  Relation.ReflTransGen (BindStep P declares)

/-- Allowing declarations in some steps allows more. -/
theorem BindSteps.allow {a b : Bindings} (h : BindSteps P false a b) : BindSteps P true a b :=
  Relation.ReflTransGen.mono (fun _ _ => BindStep.allow) _ _ h

variable {symbols : SymbolTable}

/-- A match is made of steps that look at expressions of the target, or at receivers that are
left out. -/
theorem Matches.steps {g : MatchGoal} {a b : Bindings} (h : Matches symbols g a b)
    (implicit : ∀ owner, P (.this (.ofType (.ofClass owner)))) (hg : g.All P) :
    BindSteps P g.declares a b := by
  -- By induction on the derivation, with the steps of the parts one after the other.  Only
  -- declarations bind names, so what expressions do is allowed without them.
  induction h with
  | free h | repeatedOne h | receiverFree h => exact .single (.free hg h)
  | localVar h =>
    obtain ⟨rfl, -⟩ := Bindings.matchLocal_eq_some h
    exact .refl
  | typeVar h => exact .single (.type hg h)
  | repeatedRest h => exact .single (.repeated hg h)
  | classRef | staticRef | literal | primitiveType | nil | absent | noInit | empty | noStmts
  | noStmt => exact .refl
  | unary _ ih => exact ih (Expr.All.child hg List.mem_cons_self).skipParens
  | parenBoth _ ih | arrayType _ ih | select _ _ _ ih =>
    exact ih (Expr.All.child hg List.mem_cons_self)
  | bareMember _ _ _ _ _ ih =>
    exact ih (Expr.all_iff.mpr ⟨implicit _, fun c hc => absurd hc List.not_mem_nil⟩)
  | parenLeft _ ih | anyOf _ _ ih | ofForm _ _ ih | receiverParen _ ih | receiverAnyOf _ _ ih =>
    exact ih hg
  | binary _ _ ih ih' | assign _ _ ih ih' | compoundAssign _ _ ih ih' | cast _ _ ih ih'
  | instanceOf _ _ ih ih' | index _ _ ih ih' =>
    have first := ih (Expr.All.child hg List.mem_cons_self)
    have second := ih' (Expr.All.child hg (List.mem_cons_of_mem _ List.mem_cons_self))
    exact first.trans second
  | call _ _ ih ih' | newObject _ _ ih ih' | typeApply _ _ ih ih' =>
    have first := ih (Expr.All.child hg List.mem_cons_self)
    have rest := ih' fun x hx => Expr.All.child hg (List.mem_cons_of_mem _ hx)
    exact first.trans rest
  | conditional _ _ _ ih ih' ih'' =>
    have hCond := ih (Expr.All.child hg (by simp [Expr.children]))
    have hYes := ih' (Expr.All.child hg (by simp [Expr.children]))
    have hNo := ih'' (Expr.All.child hg (by simp [Expr.children]))
    exact (hCond.trans hYes).trans hNo
  | newArray _ _ _ ih ih' ih'' =>
    have hElement := ih fun x hx => Expr.All.child hg (by
      simp [Expr.children, Option.mem_def.mp hx])
    have hDims := ih' fun x hx => Expr.All.child hg (by simp [Expr.children, hx])
    have hInit := ih'' fun xs hxs x hx => Expr.All.child hg (by
      simp [Expr.children, Option.mem_def.mp hxs, hx])
    exact (hElement.trans hDims).trans hInit
  | cons _ _ _ ih ih' | consStmt _ _ ih ih' =>
    have first := ih (hg _ List.mem_cons_self)
    have rest := ih' fun x hx => hg x (List.mem_cons_of_mem _ hx)
    exact first.trans rest
  | present _ ih | someInit _ ih | someStmt _ ih => exact ih (hg _ rfl)
  | decl _ _ _ _ bound ih ih' =>
    have hType := (ih (hg _ List.mem_cons_self)).allow
    have hInit := ih' fun x hx => hg x (List.mem_cons_of_mem _ (Option.mem_toList.mpr hx))
    exact (hType.trans hInit.allow).tail (.declare rfl bound)
  | declare _ ih => exact ih fun x hx => Stmt.All.expr hg (List.mem_map_of_mem hx)
  | block _ ih => exact ih fun t ht => Stmt.All.stmt hg (List.mem_map_of_mem ht)
  | exprStmt _ ih | raise _ ih => exact (ih (Stmt.All.expr hg List.mem_cons_self)).allow
  | ret _ ih =>
    have value := ih fun x hx =>
      Stmt.All.expr hg (List.mem_map_of_mem (Option.mem_toList.mpr hx))
    exact value.allow
  | whileLoop _ _ ih ih' | synchronized _ _ ih ih' =>
    have head := (ih (Stmt.All.expr hg (by simp [Stmt.children]))).allow
    exact head.trans (ih' (Stmt.All.stmt hg (by simp [Stmt.children])))
  | doLoop _ _ ih ih' =>
    have body := ih (Stmt.All.stmt hg (by simp [Stmt.children]))
    exact body.trans (ih' (Stmt.All.expr hg (by simp [Stmt.children]))).allow
  | ifElse _ _ _ ih ih' ih'' =>
    have hCond := (ih (Stmt.All.expr hg (by simp [Stmt.children]))).allow
    have hYes := ih' (Stmt.All.stmt hg (by simp [Stmt.children]))
    have hNo := ih'' fun t ht => Stmt.All.stmt hg (by
      simp [Stmt.children, Option.mem_def.mp ht])
    exact (hCond.trans hYes).trans hNo
  | forEach _ _ _ ih ih' ih'' =>
    have hVar := ih fun x hx => Stmt.All.expr hg (List.mem_append_left _ (List.mem_map_of_mem hx))
    have hIterable := (ih' (Stmt.All.expr hg (by simp [Stmt.children]))).allow
    have hBody := ih'' (Stmt.All.stmt hg (by simp [Stmt.children]))
    exact (hVar.trans hIterable).trans hBody
  | forLoop _ _ _ _ ih₁ ih₂ ih₃ ih₄ =>
    have hInit := ih₁ fun t ht => Stmt.All.stmt hg (by simp [Stmt.children, ht])
    have hCond := (ih₂ fun x hx => Stmt.All.expr hg (by
      simp [Stmt.children, Option.mem_def.mp hx])).allow
    have hUpdate := (ih₃ fun x hx => Stmt.All.expr hg (by simp [Stmt.children, hx])).allow
    have hBody := ih₄ (Stmt.All.stmt hg (by simp [Stmt.children]))
    exact ((hInit.trans hCond).trans hUpdate).trans hBody

/-- A step keeps a property of all nodes that bindings hold. -/
theorem Bindings.All.step {declares : Bool} {a b : Bindings} (ha : a.All P)
    (h : BindStep P declares a b) : b.All P := by
  cases h with
  | free he h => exact ha.matchFree he h
  | type he h => exact ha.matchType he h
  | repeated hes h => exact ha.matchRepeated hes h
  | declare _ h =>
    obtain ⟨locals, -, rfl⟩ := Bindings.insertLocal_eq_ok h
    exact ⟨ha.free, ha.types, ha.repeated⟩

/-- What a match binds stands in the target, or is a receiver that is left out. -/
theorem Matches.all {g : MatchGoal} {a b : Bindings} (h : Matches symbols g a b)
    (implicit : ∀ owner, P (.this (.ofType (.ofClass owner)))) (ha : a.All P) (hg : g.All P) :
    b.All P := by
  have run := h.steps implicit hg
  clear h
  induction run with
  | refl => exact ha
  | tail _ step ih => exact ih.step step

/-! ### Templates -/

/-- Binding inferred types keeps what the variables stand for. -/
theorem TemplateHeader.bindInferred_all {found : Substitution} {vars : List String}
    {a b : Bindings} (ha : a.All P) (h : bindInferred found vars a = some b) : b.All P := by
  induction vars generalizing a with
  | nil =>
    rw [bindInferred] at h
    rw [← Option.some.inj h]
    exact ha
  | cons var vars ih =>
    rw [bindInferred] at h
    split at h
    · rename_i inserted
      exact ih (ha.insertType (fun x hx => absurd hx (by simp)) inserted) h
    · exact absurd h (by simp)

/-- A match of a template binds what stands in the target, or a receiver that is left out. -/
theorem ExpressionTemplate.match?_all {t : ExpressionTemplate} {c : MatchContext} {target : Expr}
    {b : Bindings} (implicit : ∀ owner, P (.this (.ofType (.ofClass owner))))
    (ht : target.All P) (h : t.match? c target = some b) : b.All P := by
  obtain ⟨a, matched, -, h⟩ := match?_eq_some_iff.mp h
  have ha : a.All P :=
    (t.pattern.matches_of_unify matched).all implicit Bindings.all_empty ht
  obtain ⟨first, -, h⟩ := Option.bind_eq_some_iff.mp h
  obtain ⟨arguments, -, h⟩ := Option.bind_eq_some_iff.mp h
  obtain ⟨instantiation, -, h⟩ := Option.bind_eq_some_iff.mp h
  obtain ⟨inferred, hinferred, h⟩ := Option.bind_eq_some_iff.mp h
  split at h
  · rw [← Option.some.inj h]
    exact TemplateHeader.bindInferred_all ha hinferred
  · exact absurd h (by simp)

end JavaRefactor
