import JavaRefactor.Proofs.Matching.Derivation
import Mathlib.Data.List.Basic

/-!
# Names of symbols in a target

A local variable of a pattern is bound to a symbol together with the name that the matched
code declares it by, and later references to it are matched by symbol alone.  Writing the
pattern back gives the declared name, so it has to be the one by which the code refers to
the symbol.  `Expr.namedSymbols` and `Stmt.namedSymbols` list the symbols of a target with
their names; `NamesAgree` says that no symbol has two.  Matching binds local variables only
to symbols and names on that list (`Matches.localsIn`).
-/

namespace JavaRefactor

/-- Symbols with the names by which some code declares them or refers to them. -/
abbrev NamedSymbols := List (SymbolId × String)

/-- Every symbol has one name. -/
def NamesAgree (names : NamedSymbols) : Prop :=
  ∀ id n m, (id, n) ∈ names → (id, m) ∈ names → n = m

instance (names : NamedSymbols) : Decidable (NamesAgree names) :=
  decidable_of_iff (∀ p ∈ names, ∀ q ∈ names, p.1 = q.1 → p.2 = q.2)
    ⟨fun h id n m hn hm => h (id, n) hn (id, m) hm rfl,
      fun h p hp q hq same => h p.1 p.2 q.2 hp (by rw [same]; exact hq)⟩

namespace Expr

/-- The symbol that an identifier resolves to, with its name. -/
def namedSymbol? : Expr → Option (SymbolId × String)
  | ident _ name (some id) => some (id, name)
  | _ => none

/-- The symbols of the identifiers of an expression. -/
def namedSymbols (e : Expr) : NamedSymbols := e.nodes.filterMap namedSymbol?

/-- The symbols of an expression are those of its root and of its children. -/
theorem namedSymbols_eq (e : Expr) :
    e.namedSymbols = e.namedSymbol?.toList ++ e.children.flatMap namedSymbols := by
  rw [namedSymbols, nodes_eq, List.filterMap_cons, List.filterMap_flatMap]
  cases e.namedSymbol? <;> rfl

/-- Every symbol of an expression is listed with its name. -/
def NamedIn (names : NamedSymbols) (e : Expr) : Prop := e.namedSymbols ⊆ names

variable {names : NamedSymbols}

/-- The symbols of a child are symbols of the expression. -/
theorem NamedIn.child {e c : Expr} (h : e.NamedIn names) (hc : c ∈ e.children) :
    c.NamedIn names := by
  intro pair hpair
  refine h ?_
  rw [namedSymbols_eq]
  exact List.mem_append_right _ (List.mem_flatMap.mpr ⟨c, hc, hpair⟩)

/-- An identifier is listed with its symbol and its name. -/
theorem NamedIn.ident {i : NodeInfo} {name : String} {id : SymbolId}
    (h : (Expr.ident i name (some id)).NamedIn names) : (id, name) ∈ names := by
  refine h ?_
  rw [namedSymbols_eq]
  exact List.mem_append_left _ (List.mem_singleton.mpr rfl)

/-- Skipping parentheses skips no symbols. -/
theorem NamedIn.skipParens {e : Expr} (h : e.NamedIn names) : e.skipParens.NamedIn names := by
  induction e using Expr.induction with
  | step e ih =>
    cases e with
    | paren i inner =>
      have mem : inner ∈ (Expr.paren i inner).children := List.mem_singleton.mpr rfl
      exact ih inner mem (h.child mem)
    | _ => exact h

/-- A `this` that is not written has no symbols. -/
theorem namedIn_this (i : NodeInfo) : (Expr.this i).NamedIn names := by
  intro pair hpair
  rw [namedSymbols_eq] at hpair
  exact absurd hpair List.not_mem_nil

end Expr

/-- The symbol that a declaration declares, with its name. -/
def VarDecl.namedSymbol? (d : VarDecl) : Option (SymbolId × String) :=
  d.symbol.map fun id => (id, d.name)

namespace Stmt

/-- The declaration that a statement makes itself. -/
def declaration? : Stmt → Option VarDecl
  | declare _ d => some d
  | forEach _ d _ _ => some d
  | _ => none

/-- The symbols of the identifiers and the declarations of a statement. -/
def namedSymbols (s : Stmt) : NamedSymbols :=
  s.exprs.filterMap Expr.namedSymbol?
    ++ s.stmts.filterMap fun t => t.declaration?.bind VarDecl.namedSymbol?

/-- Every symbol of a statement is listed with its name. -/
def NamedIn (names : NamedSymbols) (s : Stmt) : Prop := s.namedSymbols ⊆ names

variable {names : NamedSymbols}

/-- The expressions inside a part of a statement are inside the statement. -/
theorem nodes_subset_exprs {s : Stmt} {e : Expr} (h : StmtPart.expr e ∈ s.children) :
    e.nodes ⊆ s.exprs := by
  intro node hnode
  rw [exprs_eq]
  exact List.mem_flatMap.mpr ⟨.expr e, h, hnode⟩

/-- The expressions of a part are expressions of the statement. -/
theorem exprs_subset_exprs {s t : Stmt} (h : StmtPart.stmt t ∈ s.children) :
    t.exprs ⊆ s.exprs := by
  intro node hnode
  rw [exprs_eq]
  exact List.mem_flatMap.mpr ⟨.stmt t, h, hnode⟩

/-- A statement is among its own statements. -/
theorem mem_stmts_self (s : Stmt) : s ∈ s.stmts := by
  rw [stmts_eq]
  exact List.mem_cons_self

/-- The statements of a part are statements of the statement. -/
theorem stmts_subset_stmts {s t : Stmt} (h : StmtPart.stmt t ∈ s.children) :
    t.stmts ⊆ s.stmts := by
  intro inner hinner
  rw [stmts_eq]
  exact List.mem_cons_of_mem _ (List.mem_flatMap.mpr ⟨.stmt t, h, hinner⟩)

/-- The symbols of an expression in a statement are symbols of the statement. -/
theorem NamedIn.expr {s : Stmt} {e : Expr} (h : s.NamedIn names)
    (he : StmtPart.expr e ∈ s.children) : e.NamedIn names := by
  intro pair hpair
  obtain ⟨node, hnode, named⟩ := List.mem_filterMap.mp hpair
  exact h (List.mem_append_left _
    (List.mem_filterMap.mpr ⟨node, nodes_subset_exprs he hnode, named⟩))

/-- The symbols of a part are symbols of the statement. -/
theorem NamedIn.stmt {s t : Stmt} (h : s.NamedIn names) (ht : StmtPart.stmt t ∈ s.children) :
    t.NamedIn names := by
  intro pair hpair
  rcases List.mem_append.mp hpair with hpair | hpair
  · obtain ⟨node, hnode, named⟩ := List.mem_filterMap.mp hpair
    exact h (List.mem_append_left _
      (List.mem_filterMap.mpr ⟨node, exprs_subset_exprs ht hnode, named⟩))
  · obtain ⟨inner, hinner, named⟩ := List.mem_filterMap.mp hpair
    exact h (List.mem_append_right _
      (List.mem_filterMap.mpr ⟨inner, stmts_subset_stmts ht hinner, named⟩))

/-- The local that a statement declares is listed. -/
theorem NamedIn.declared {s : Stmt} {d : VarDecl} {pair : SymbolId × String}
    (h : s.NamedIn names) (hd : s.declaration? = some d) (named : d.namedSymbol? = some pair) :
    pair ∈ names := by
  refine h (List.mem_append_right _ (List.mem_filterMap.mpr ⟨s, mem_stmts_self s, ?_⟩))
  rw [hd]
  exact named

end Stmt

/-- Every symbol of a declaration is listed with its name. -/
structure VarDecl.NamedIn (names : NamedSymbols) (d : VarDecl) : Prop where
  own : ∀ pair, d.namedSymbol? = some pair → pair ∈ names
  children : ∀ e ∈ d.children, e.NamedIn names

/-- The symbols of a declaration are symbols of the statement that makes it. -/
theorem Stmt.NamedIn.declaration {names : NamedSymbols} {s : Stmt} {d : VarDecl}
    (h : s.NamedIn names) (hd : s.declaration? = some d)
    (parts : ∀ e ∈ d.children, StmtPart.expr e ∈ s.children) : d.NamedIn names :=
  ⟨fun _ named => h.declared hd named, fun e he => h.expr (parts e he)⟩

namespace MatchGoal

/-- Every symbol of the target of a goal is listed with its name. -/
def NamedIn (names : NamedSymbols) : MatchGoal → Prop
  | expr _ e | receiver _ e => e.NamedIn names
  | list _ es => ∀ e ∈ es, e.NamedIn names
  | option _ e => ∀ x ∈ e, x.NamedIn names
  | init _ es => ∀ e ∈ es.getD [], e.NamedIn names
  | decl _ d => d.NamedIn names
  | stmt _ s => s.NamedIn names
  | stmts _ ss => ∀ s ∈ ss, s.NamedIn names
  | stmtOption _ s => ∀ x ∈ s, x.NamedIn names

end MatchGoal

/-- Local variables are only bound to listed symbols, under their names. -/
def Bindings.LocalsIn (names : NamedSymbols) (b : Bindings) : Prop :=
  ∀ name v, b.locals.lookup name = some v → (v.symbol, v.name) ∈ names

namespace Bindings

variable {names : NamedSymbols} {a b : Bindings} {name : String}

/-- Matching a variable for one expression binds no local. -/
theorem LocalsIn.matchFree {e : Expr} (h : a.LocalsIn names)
    (matched : a.matchFree name e = some b) : b.LocalsIn names := by
  obtain ⟨-, ⟨-, inserted⟩ | ⟨bound, -, -, rfl⟩⟩ := matchFree_eq_some matched
  · obtain ⟨free, -, rfl⟩ := insertFree_eq_ok inserted
    exact h
  · exact h

/-- Matching a type parameter binds no local. -/
theorem LocalsIn.matchType {e : Expr} (h : a.LocalsIn names)
    (matched : a.matchType name e = some b) : b.LocalsIn names := by
  obtain ⟨-, inserted⟩ | ⟨_, -, -, rfl⟩ := matchType_eq_some matched
  · obtain ⟨types, -, rfl⟩ := insertType_eq_ok inserted
    exact h
  · exact h

/-- Matching a variable for several expressions binds no local. -/
theorem LocalsIn.matchRepeated {es : List Expr} (h : a.LocalsIn names)
    (matched : a.matchRepeated name es = some b) : b.LocalsIn names := by
  obtain ⟨items, -, inserted⟩ := matchRepeated_eq_some matched
  obtain ⟨repeated, -, rfl⟩ := insertRepeated_eq_ok inserted
  exact h

/-- A local that is bound to a listed symbol is listed. -/
theorem LocalsIn.insertLocal {v : LocalBinding} (h : a.LocalsIn names)
    (inserted : a.insertLocal name v = .ok b) (hv : (v.symbol, v.name) ∈ names) :
    b.LocalsIn names := by
  obtain ⟨locals, hlocals, rfl⟩ := insertLocal_eq_ok inserted
  intro other w hw
  rcases Assignments.lookup_of_insert? hlocals hw with hw | ⟨-, rfl⟩
  · exact h other w hw
  · exact hv

end Bindings

/-- Matching binds local variables to symbols of the target, under the names that they are
declared by. -/
theorem Matches.localsIn {symbols : SymbolTable} {names : NamedSymbols} {g : MatchGoal}
    {a b : Bindings} (h : Matches symbols g a b) (named : g.NamedIn names)
    (ha : a.LocalsIn names) : b.LocalsIn names := by
  -- By induction on the derivation, through the bindings between the parts.  Only a declaration
  -- adds a local variable, and its symbol is the one that the target names.
  induction h with
  | free h | repeatedOne h | receiverFree h => exact ha.matchFree h
  | localVar h =>
    obtain ⟨rfl, -⟩ := Bindings.matchLocal_eq_some h
    exact ha
  | typeVar h => exact ha.matchType h
  | repeatedRest h => exact ha.matchRepeated h
  | classRef | staticRef | literal | primitiveType | nil | absent | noInit | empty | noStmts
  | noStmt => exact ha
  | unary _ ih => exact ih (named.child (by simp [Expr.children])).skipParens ha
  | select _ _ _ ih | parenBoth _ ih | arrayType _ ih =>
    exact ih (named.child (by simp [Expr.children])) ha
  | bareMember _ _ _ _ _ ih => exact ih (Expr.namedIn_this _) ha
  | parenLeft _ ih | anyOf _ _ ih | ofForm _ _ ih | receiverParen _ ih
  | receiverAnyOf _ _ ih => exact ih named ha
  | binary _ _ ih ih' | assign _ _ ih ih' | compoundAssign _ _ ih ih' | cast _ _ ih ih'
  | instanceOf _ _ ih ih' | index _ _ ih ih' =>
    exact ih' (named.child (by simp [Expr.children]))
      (ih (named.child (by simp [Expr.children])) ha)
  | conditional _ _ _ ih ih' ih'' =>
    exact ih'' (named.child (by simp [Expr.children]))
      (ih' (named.child (by simp [Expr.children])) (ih (named.child (by simp [Expr.children])) ha))
  | call _ _ ih ih' | newObject _ _ ih ih' | typeApply _ _ ih ih' =>
    exact ih' (fun e he => named.child (List.mem_cons_of_mem _ he))
      (ih (named.child List.mem_cons_self) ha)
  | newArray _ _ _ ih ih' ih'' =>
    have hElement := ih (fun e he => named.child (by simp_all [Expr.children])) ha
    have hDims := ih' (fun e he => named.child (by simp_all [Expr.children])) hElement
    exact ih'' (fun e he => named.child (by simp_all [Expr.children])) hDims
  | cons _ _ _ ih ih' =>
    exact ih' (fun e he => named e (List.mem_cons_of_mem _ he))
      (ih (named _ List.mem_cons_self) ha)
  | present _ ih => exact ih (named _ rfl) ha
  | someInit _ ih => exact ih named ha
  | decl _ declared _ _ bound ih ih' =>
    have hType := ih (named.children _ List.mem_cons_self) ha
    have hInit := ih' (fun e he => named.children e (by simp_all [VarDecl.children])) hType
    exact hInit.insertLocal bound (named.own _ (by simp [VarDecl.namedSymbol?, declared]))
  | block _ ih => exact ih (fun s hs => named.stmt (by simpa [Stmt.children] using hs)) ha
  | ifElse _ _ _ ih ih' ih'' =>
    have hCond := ih (named.expr (by simp [Stmt.children])) ha
    have hYes := ih' (named.stmt (by simp [Stmt.children])) hCond
    exact ih'' (fun s hs => named.stmt (by simp_all [Stmt.children])) hYes
  | whileLoop _ _ ih ih' | synchronized _ _ ih ih' =>
    exact ih' (named.stmt (by simp [Stmt.children])) (ih (named.expr (by simp [Stmt.children])) ha)
  | doLoop _ _ ih ih' =>
    exact ih' (named.expr (by simp [Stmt.children])) (ih (named.stmt (by simp [Stmt.children])) ha)
  | forLoop _ _ _ _ ih₁ ih₂ ih₃ ih₄ =>
    have hInit := ih₁ (fun s hs => named.stmt (by simp [Stmt.children, hs])) ha
    have hCond := ih₂ (fun e he => named.expr (by simp_all [Stmt.children])) hInit
    have hUpdate := ih₃ (fun e he => named.expr (by simp [Stmt.children, he])) hCond
    exact ih₄ (named.stmt (by simp [Stmt.children])) hUpdate
  | forEach _ _ _ ih ih' ih'' =>
    have hVar := ih (named.declaration rfl fun e he => by simp [Stmt.children, he]) ha
    have hIterable := ih' (named.expr (by simp [Stmt.children])) hVar
    exact ih'' (named.stmt (by simp [Stmt.children])) hIterable
  | ret _ ih => exact ih (fun e he => named.expr (by simp_all [Stmt.children])) ha
  | raise _ ih | exprStmt _ ih => exact ih (named.expr (by simp [Stmt.children])) ha
  | declare _ ih =>
    exact ih (named.declaration rfl fun e he => by simp [Stmt.children, he]) ha
  | consStmt _ _ ih ih' =>
    exact ih' (fun s hs => named s (List.mem_cons_of_mem _ hs))
      (ih (named _ List.mem_cons_self) ha)
  | someStmt _ ih => exact ih (named _ rfl) ha

end JavaRefactor
