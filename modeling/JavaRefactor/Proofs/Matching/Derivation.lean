import JavaRefactor.Proofs.Matching.Extension

/-!
# Derivations of matches

The matcher is a family of functions that call each other: for expressions, lists, optional
parts, declarations, statements.  This file lists their calls as the goals of one relation.
`Matches symbols g a b` says that the goal `g` turns the bindings `a` into the bindings `b`,
and its constructors are the ways in which a pattern can match.  Every success of the matcher
has such a derivation (`ExprPattern.matches_of_unify`, `StmtPattern.matches_of_unifyEach`), so
a fact about all matches takes a single induction.  The first is that matching only adds
bindings (`Matches.extends`).
-/

namespace JavaRefactor

/-- A pattern together with what it is matched against. -/
inductive MatchGoal where
  | expr (p : ExprPattern) (e : Expr)
  | list (ps : List ExprPattern) (es : List Expr)
  | option (p : Option ExprPattern) (e : Option Expr)
  | init (ps : Option (List ExprPattern)) (es : Option (List Expr))
  /-- A receiver that the target leaves out. -/
  | receiver (p : ExprPattern) (e : Expr)
  | decl (p : DeclPattern) (d : VarDecl)
  | stmt (p : StmtPattern) (s : Stmt)
  | stmts (ps : List StmtPattern) (ss : List Stmt)
  | stmtOption (p : Option StmtPattern) (s : Option Stmt)

/-- How a goal turns bindings into bindings.  Parts are matched from left to right. -/
inductive Matches (symbols : SymbolTable) : MatchGoal → Bindings → Bindings → Prop where
  -- variables and references
  | free {name : String} {e : Expr} {a b : Bindings} (h : a.matchFree name e = some b) :
      Matches symbols (.expr (.free name) e) a b
  | repeatedOne {name : String} {e : Expr} {a b : Bindings} (h : a.matchFree name e = some b) :
      Matches symbols (.expr (.repeated name) e) a b
  | localVar {name : String} {e : Expr} {a b : Bindings} (h : a.matchLocal name e = some b) :
      Matches symbols (.expr (.localVar name) e) a b
  | typeVar {name : String} {e : Expr} {a b : Bindings} (h : a.matchType name e = some b) :
      Matches symbols (.expr (.typeVar name) e) a b
  | classRef {name : String} {e : Expr} {a : Bindings}
      (h : ExprPattern.namesClass symbols name e = true) :
      Matches symbols (.expr (.classRef name) e) a a
  | staticRef {owner member : String} {type : TypePattern} {e : Expr} {a : Bindings}
      (h : ExprPattern.namesStatic symbols owner member type e = true) :
      Matches symbols (.expr (.staticRef owner member type) e) a a
  -- expressions
  | literal {i : NodeInfo} {value : Literal} {a : Bindings} :
      Matches symbols (.expr (.literal value) (.literal i value)) a a
  | binary {i : NodeInfo} {op : BinaryOperator} {l r : ExprPattern} {tl tr : Expr}
      {a b c : Bindings} (hl : Matches symbols (.expr l tl) a b)
      (hr : Matches symbols (.expr r tr) b c) :
      Matches symbols (.expr (.binary op l r) (.binary i op tl tr)) a c
  | unary {i : NodeInfo} {op : UnaryOperator} {p : ExprPattern} {t : Expr} {a b : Bindings}
      (h : Matches symbols (.expr p t.skipParens) a b) :
      Matches symbols (.expr (.unary op p) (.unary i op t)) a b
  | assign {i : NodeInfo} {l r : ExprPattern} {tl tr : Expr} {a b c : Bindings}
      (hl : Matches symbols (.expr l tl) a b) (hr : Matches symbols (.expr r tr) b c) :
      Matches symbols (.expr (.assign l r) (.assign i tl tr)) a c
  | compoundAssign {i : NodeInfo} {op : BinaryOperator} {l r : ExprPattern} {tl tr : Expr}
      {a b c : Bindings} (hl : Matches symbols (.expr l tl) a b)
      (hr : Matches symbols (.expr r tr) b c) :
      Matches symbols (.expr (.compoundAssign op l r) (.compoundAssign i op tl tr)) a c
  | conditional {i : NodeInfo} {p q r : ExprPattern} {tp tq tr : Expr} {a b c d : Bindings}
      (hp : Matches symbols (.expr p tp) a b) (hq : Matches symbols (.expr q tq) b c)
      (hr : Matches symbols (.expr r tr) c d) :
      Matches symbols (.expr (.conditional p q r) (.conditional i tp tq tr)) a d
  | cast {i : NodeInfo} {l r : ExprPattern} {tl tr : Expr} {a b c : Bindings}
      (hl : Matches symbols (.expr l tl) a b) (hr : Matches symbols (.expr r tr) b c) :
      Matches symbols (.expr (.cast l r) (.cast i tl tr)) a c
  | instanceOf {i : NodeInfo} {l r : ExprPattern} {tl tr : Expr} {a b c : Bindings}
      (hl : Matches symbols (.expr l tl) a b) (hr : Matches symbols (.expr r tr) b c) :
      Matches symbols (.expr (.instanceOf l r) (.instanceOf i tl tr)) a c
  | call {i : NodeInfo} {p : ExprPattern} {ps : List ExprPattern} {t : Expr} {ts : List Expr}
      {a b c : Bindings} (hp : Matches symbols (.expr p t) a b)
      (hps : Matches symbols (.list ps ts) b c) :
      Matches symbols (.expr (.call p ps) (.call i t ts)) a c
  | select {i : NodeInfo} {p : ExprPattern} {name : String} {type : TypePattern} {t : Expr}
      {id : SymbolId} {symbol : Symbol} {a b : Bindings} (known : symbols.get? id = some symbol)
      (hp : Matches symbols (.expr p t) a b) (typed : type.accepts symbol.type = true) :
      Matches symbols (.expr (.select p name type) (.select i t name (some id))) a b
  | bareMember {i : NodeInfo} {p : ExprPattern} {name owner : String} {type : TypePattern}
      {id : SymbolId} {symbol : Symbol} {a b : Bindings} (known : symbols.get? id = some symbol)
      (member : symbol.isMember = true) (owned : symbol.owner = some owner)
      (hp : Matches symbols (.receiver p (.this (.ofType (.ofClass owner)))) a b)
      (typed : type.accepts symbol.type = true) :
      Matches symbols (.expr (.select p name type) (.ident i name (some id))) a b
  | index {i : NodeInfo} {l r : ExprPattern} {tl tr : Expr} {a b c : Bindings}
      (hl : Matches symbols (.expr l tl) a b) (hr : Matches symbols (.expr r tr) b c) :
      Matches symbols (.expr (.index l r) (.index i tl tr)) a c
  | newArray {i : NodeInfo} {element : Option ExprPattern} {dims : List ExprPattern}
      {init : Option (List ExprPattern)} {tElement : Option Expr} {tDims : List Expr}
      {tInit : Option (List Expr)} {a b c d : Bindings}
      (hElement : Matches symbols (.option element tElement) a b)
      (hDims : Matches symbols (.list dims tDims) b c)
      (hInit : Matches symbols (.init init tInit) c d) :
      Matches symbols (.expr (.newArray element dims init) (.newArray i tElement tDims tInit)) a d
  | newObject {i : NodeInfo} {p : ExprPattern} {ps : List ExprPattern} {t : Expr}
      {ts : List Expr} {a b c : Bindings} (hp : Matches symbols (.expr p t) a b)
      (hps : Matches symbols (.list ps ts) b c) :
      Matches symbols (.expr (.newObject p ps) (.newObject i t ts)) a c
  | parenBoth {i : NodeInfo} {p : ExprPattern} {t : Expr} {a b : Bindings}
      (h : Matches symbols (.expr p t) a b) :
      Matches symbols (.expr (.paren p) (.paren i t)) a b
  | parenLeft {p : ExprPattern} {t : Expr} {a b : Bindings}
      (h : Matches symbols (.expr p t) a b) : Matches symbols (.expr (.paren p) t) a b
  | primitiveType {i : NodeInfo} {kind : Primitive} {a : Bindings} :
      Matches symbols (.expr (.primitiveType kind) (.primitiveType i kind)) a a
  | typeApply {i : NodeInfo} {p : ExprPattern} {ps : List ExprPattern} {t : Expr}
      {ts : List Expr} {a b c : Bindings} (hp : Matches symbols (.expr p t) a b)
      (hps : Matches symbols (.list ps ts) b c) :
      Matches symbols (.expr (.typeApply p ps) (.typeApply i t ts)) a c
  | arrayType {i : NodeInfo} {p : ExprPattern} {t : Expr} {a b : Bindings}
      (h : Matches symbols (.expr p t) a b) :
      Matches symbols (.expr (.arrayType p) (.arrayType i t)) a b
  | anyOf {ps : List ExprPattern} {p : ExprPattern} {t : Expr} {a b : Bindings} (hp : p ∈ ps)
      (h : Matches symbols (.expr p t) a b) : Matches symbols (.expr (.anyOf ps) t) a b
  | ofForm {p : ExprPattern} {allowed : List ExprForm} {t : Expr} {a b : Bindings}
      (form : allowed.contains t.form = true) (h : Matches symbols (.expr p t) a b) :
      Matches symbols (.expr (.ofForm p allowed) t) a b
  -- receivers that are left out
  | receiverFree {name : String} {e : Expr} {a b : Bindings} (h : a.matchFree name e = some b) :
      Matches symbols (.receiver (.free name) e) a b
  | receiverParen {p : ExprPattern} {e : Expr} {a b : Bindings}
      (h : Matches symbols (.receiver p e) a b) : Matches symbols (.receiver (.paren p) e) a b
  | receiverAnyOf {ps : List ExprPattern} {p : ExprPattern} {e : Expr} {a b : Bindings}
      (hp : p ∈ ps) (h : Matches symbols (.receiver p e) a b) :
      Matches symbols (.receiver (.anyOf ps) e) a b
  -- lists and optional parts
  | nil {a : Bindings} : Matches symbols (.list [] []) a a
  | repeatedRest {name : String} {ts : List Expr} {a b : Bindings}
      (h : a.matchRepeated name ts = some b) : Matches symbols (.list [.repeated name] ts) a b
  | cons {p : ExprPattern} {ps : List ExprPattern} {t : Expr} {ts : List Expr}
      {a b c : Bindings} (single : ∀ name, p ≠ .repeated name)
      (hp : Matches symbols (.expr p t) a b) (hps : Matches symbols (.list ps ts) b c) :
      Matches symbols (.list (p :: ps) (t :: ts)) a c
  | absent {a : Bindings} : Matches symbols (.option none none) a a
  | present {p : ExprPattern} {t : Expr} {a b : Bindings}
      (h : Matches symbols (.expr p t) a b) : Matches symbols (.option (some p) (some t)) a b
  | noInit {a : Bindings} : Matches symbols (.init none none) a a
  | someInit {ps : List ExprPattern} {ts : List Expr} {a b : Bindings}
      (h : Matches symbols (.list ps ts) a b) : Matches symbols (.init (some ps) (some ts)) a b
  -- declarations and statements
  | decl {p : DeclPattern} {d : VarDecl} {symbol : SymbolId} {a b c e : Bindings}
      (fresh : a.locals.lookup p.name = none) (declared : d.symbol = some symbol)
      (hType : Matches symbols (.expr p.type d.type) a b)
      (hInit : Matches symbols (.option p.init d.init) b c)
      (bound : c.insertLocal p.name ⟨symbol, d.name⟩ = .ok e) :
      Matches symbols (.decl p d) a e
  | block {i : StmtInfo} {ps : List StmtPattern} {ts : List Stmt} {a b : Bindings}
      (h : Matches symbols (.stmts ps ts) a b) :
      Matches symbols (.stmt (.block ps) (.block i ts)) a b
  | ifElse {i : StmtInfo} {cond : ExprPattern} {yes : StmtPattern} {no : Option StmtPattern}
      {tCond : Expr} {tYes : Stmt} {tNo : Option Stmt} {a b c d : Bindings}
      (hCond : Matches symbols (.expr cond tCond) a b)
      (hYes : Matches symbols (.stmt yes tYes) b c)
      (hNo : Matches symbols (.stmtOption no tNo) c d) :
      Matches symbols (.stmt (.ifElse cond yes no) (.ifElse i tCond tYes tNo)) a d
  | whileLoop {i : StmtInfo} {cond : ExprPattern} {body : StmtPattern} {tCond : Expr}
      {tBody : Stmt} {a b c : Bindings} (hCond : Matches symbols (.expr cond tCond) a b)
      (hBody : Matches symbols (.stmt body tBody) b c) :
      Matches symbols (.stmt (.whileLoop cond body) (.whileLoop i tCond tBody)) a c
  | doLoop {i : StmtInfo} {cond : ExprPattern} {body : StmtPattern} {tCond : Expr}
      {tBody : Stmt} {a b c : Bindings} (hBody : Matches symbols (.stmt body tBody) a b)
      (hCond : Matches symbols (.expr cond tCond) b c) :
      Matches symbols (.stmt (.doLoop body cond) (.doLoop i tBody tCond)) a c
  | forLoop {i : StmtInfo} {init : List StmtPattern} {cond : Option ExprPattern}
      {update : List ExprPattern} {body : StmtPattern} {tInit : List Stmt}
      {tCond : Option Expr} {tUpdate : List Expr} {tBody : Stmt} {a b c d e : Bindings}
      (hInit : Matches symbols (.stmts init tInit) a b)
      (hCond : Matches symbols (.option cond tCond) b c)
      (hUpdate : Matches symbols (.list update tUpdate) c d)
      (hBody : Matches symbols (.stmt body tBody) d e) :
      Matches symbols (.stmt (.forLoop init cond update body)
        (.forLoop i tInit tCond tUpdate tBody)) a e
  | forEach {i : StmtInfo} {var : DeclPattern} {iterable : ExprPattern} {body : StmtPattern}
      {tVar : VarDecl} {tIterable : Expr} {tBody : Stmt} {a b c d : Bindings}
      (hVar : Matches symbols (.decl var tVar) a b)
      (hIterable : Matches symbols (.expr iterable tIterable) b c)
      (hBody : Matches symbols (.stmt body tBody) c d) :
      Matches symbols (.stmt (.forEach var iterable body) (.forEach i tVar tIterable tBody)) a d
  | ret {i : StmtInfo} {value : Option ExprPattern} {tValue : Option Expr} {a b : Bindings}
      (h : Matches symbols (.option value tValue) a b) :
      Matches symbols (.stmt (.ret value) (.ret i tValue)) a b
  | raise {i : StmtInfo} {value : ExprPattern} {tValue : Expr} {a b : Bindings}
      (h : Matches symbols (.expr value tValue) a b) :
      Matches symbols (.stmt (.raise value) (.raise i tValue)) a b
  | synchronized {i : StmtInfo} {lock : ExprPattern} {body : StmtPattern} {tLock : Expr}
      {tBody : Stmt} {a b c : Bindings} (hLock : Matches symbols (.expr lock tLock) a b)
      (hBody : Matches symbols (.stmt body tBody) b c) :
      Matches symbols (.stmt (.synchronized lock body) (.synchronized i tLock tBody)) a c
  | exprStmt {i : StmtInfo} {value : ExprPattern} {tValue : Expr} {a b : Bindings}
      (h : Matches symbols (.expr value tValue) a b) :
      Matches symbols (.stmt (.expr value) (.expr i tValue)) a b
  | empty {i : StmtInfo} {a : Bindings} : Matches symbols (.stmt .empty (.empty i)) a a
  | declare {i : StmtInfo} {p : DeclPattern} {d : VarDecl} {a b : Bindings}
      (h : Matches symbols (.decl p d) a b) :
      Matches symbols (.stmt (.declare p) (.declare i d)) a b
  | noStmts {a : Bindings} : Matches symbols (.stmts [] []) a a
  | consStmt {p : StmtPattern} {ps : List StmtPattern} {t : Stmt} {ts : List Stmt}
      {a b c : Bindings} (hp : Matches symbols (.stmt p t) a b)
      (hps : Matches symbols (.stmts ps ts) b c) :
      Matches symbols (.stmts (p :: ps) (t :: ts)) a c
  | noStmt {a : Bindings} : Matches symbols (.stmtOption none none) a a
  | someStmt {p : StmtPattern} {t : Stmt} {a b : Bindings}
      (h : Matches symbols (.stmt p t) a b) :
      Matches symbols (.stmtOption (some p) (some t)) a b

variable {symbols : SymbolTable}

/-- Matching only adds bindings. -/
theorem Matches.extends {g : MatchGoal} {a b : Bindings} (h : Matches symbols g a b) :
    b.Extends a := by
  induction h with
  | free h => exact Bindings.matchFree_extends h
  | repeatedOne h => exact Bindings.matchFree_extends h
  | receiverFree h => exact Bindings.matchFree_extends h
  | localVar h =>
    obtain ⟨rfl, -⟩ := Bindings.matchLocal_eq_some h
    exact .refl _
  | typeVar h => exact Bindings.matchType_extends h
  | repeatedRest h => exact Bindings.matchRepeated_extends h
  | classRef | staticRef | literal | primitiveType | nil | absent | noInit | empty | noStmts
  | noStmt => exact .refl _
  | unary _ ih | select _ _ _ ih | bareMember _ _ _ _ _ ih | parenBoth _ ih | parenLeft _ ih
  | arrayType _ ih | anyOf _ _ ih | ofForm _ _ ih | receiverParen _ ih | receiverAnyOf _ _ ih
  | present _ ih | someInit _ ih | block _ ih | ret _ ih | raise _ ih | exprStmt _ ih
  | declare _ ih | someStmt _ ih => exact ih
  | binary _ _ ih ih' | assign _ _ ih ih' | compoundAssign _ _ ih ih' | cast _ _ ih ih'
  | instanceOf _ _ ih ih' | call _ _ ih ih' | index _ _ ih ih' | newObject _ _ ih ih'
  | typeApply _ _ ih ih' | cons _ _ _ ih ih' | whileLoop _ _ ih ih' | doLoop _ _ ih ih'
  | synchronized _ _ ih ih' | consStmt _ _ ih ih' => exact ih'.trans ih
  | conditional _ _ _ ih ih' ih'' | newArray _ _ _ ih ih' ih'' | ifElse _ _ _ ih ih' ih''
  | forEach _ _ _ ih ih' ih'' => exact ih''.trans (ih'.trans ih)
  | forLoop _ _ _ _ ih₁ ih₂ ih₃ ih₄ => exact ih₄.trans (ih₃.trans (ih₂.trans ih₁))
  | decl _ _ _ _ bound ih ih' => exact (Bindings.insertLocal_extends bound).trans (ih'.trans ih)

/-! ### Every match has a derivation -/

namespace ExprPattern

mutual

/-- A receiver that is left out is matched by a rule. -/
theorem matches_of_matchImplicit : (p : ExprPattern) → {e : Expr} → {a b : Bindings} →
    p.matchImplicit e a = some b → Matches symbols (.receiver p e) a b
  | .free _, _, _, _, h => .receiverFree (by simpa only [matchImplicit] using h)
  | .paren inner, _, _, _, h =>
    .receiverParen (matches_of_matchImplicit inner (by simpa only [matchImplicit] using h))
  | .anyOf ps, _, _, _, h => by
    rw [matchImplicit] at h
    obtain ⟨p, hp, hm⟩ := matches_of_matchImplicitFirst ps h
    exact .receiverAnyOf hp hm
  | .literal _, _, _, _, h | .localVar _, _, _, _, h | .typeVar _, _, _, _, h
  | .classRef _, _, _, _, h | .staticRef .., _, _, _, h | .binary .., _, _, _, h
  | .unary .., _, _, _, h | .assign .., _, _, _, h | .compoundAssign .., _, _, _, h
  | .conditional .., _, _, _, h | .cast .., _, _, _, h | .instanceOf .., _, _, _, h
  | .call .., _, _, _, h | .select .., _, _, _, h | .index .., _, _, _, h
  | .newArray .., _, _, _, h | .newObject .., _, _, _, h | .primitiveType _, _, _, _, h
  | .typeApply .., _, _, _, h | .arrayType _, _, _, _, h | .repeated _, _, _, _, h
  | .ofForm .., _, _, _, h => absurd h (by simp [matchImplicit])

theorem matches_of_matchImplicitFirst : (ps : List ExprPattern) → {e : Expr} →
    {a b : Bindings} → matchImplicitFirst ps e a = some b →
    ∃ p ∈ ps, Matches symbols (.receiver p e) a b
  | [], _, _, _, h => absurd h (by simp [matchImplicitFirst])
  | p :: ps, _, _, _, h => by
    rw [matchImplicitFirst] at h
    split at h
    · rename_i found hfound
      rw [h] at hfound
      exact ⟨p, List.mem_cons_self, matches_of_matchImplicit p hfound⟩
    · obtain ⟨q, hq, hm⟩ := matches_of_matchImplicitFirst ps h
      exact ⟨q, List.mem_cons_of_mem _ hq, hm⟩

end

mutual

/-- A successful match of an expression has a derivation. -/
theorem matches_of_unify : (p : ExprPattern) → {e : Expr} → {a b : Bindings} →
    p.unify symbols e a = some b → Matches symbols (.expr p e) a b
  | .literal _, _, _, _, h => by
    unfold unify at h
    -- a target of the pattern's own form, and then one of any other form, where nothing matches
    split at h
    · split at h
      · rename_i same
        rw [← same, ← Option.some.inj h]
        exact .literal
      · exact absurd h (by simp)
    · exact absurd h (by simp)
  | .free _, _, _, _, h => .free (by simpa only [unify] using h)
  | .repeated _, _, _, _, h => .repeatedOne (by simpa only [unify] using h)
  | .localVar _, _, _, _, h => .localVar (by simpa only [unify] using h)
  | .typeVar _, _, _, _, h => .typeVar (by simpa only [unify] using h)
  | .classRef _, _, _, _, h => by
    unfold unify at h
    split at h
    · rename_i named
      rw [← Option.some.inj h]
      exact .classRef named
    · exact absurd h (by simp)
  | .staticRef .., _, _, _, h => by
    unfold unify at h
    split at h
    · rename_i named
      rw [← Option.some.inj h]
      exact .staticRef named
    · exact absurd h (by simp)
  | .binary _ l r, _, _, _, h => by
    unfold unify at h
    split at h
    · split at h
      · rename_i same
        obtain ⟨c, hl, hr⟩ := Option.bind_eq_some_iff.mp h
        rw [← same]
        exact .binary (matches_of_unify l hl) (matches_of_unify r hr)
      · exact absurd h (by simp)
    · exact absurd h (by simp)
  | .unary _ p, _, _, _, h => by
    unfold unify at h
    split at h
    · split at h
      · rename_i same
        rw [← same]
        exact .unary (matches_of_unify p h)
      · exact absurd h (by simp)
    · exact absurd h (by simp)
  | .assign l r, _, _, _, h => by
    unfold unify at h
    split at h
    · obtain ⟨c, hl, hr⟩ := Option.bind_eq_some_iff.mp h
      exact .assign (matches_of_unify l hl) (matches_of_unify r hr)
    · exact absurd h (by simp)
  | .compoundAssign _ l r, _, _, _, h => by
    unfold unify at h
    split at h
    · split at h
      · rename_i same
        obtain ⟨c, hl, hr⟩ := Option.bind_eq_some_iff.mp h
        rw [← same]
        exact .compoundAssign (matches_of_unify l hl) (matches_of_unify r hr)
      · exact absurd h (by simp)
    · exact absurd h (by simp)
  | .conditional p q r, _, _, _, h => by
    unfold unify at h
    split at h
    · obtain ⟨c, hp, h⟩ := Option.bind_eq_some_iff.mp h
      obtain ⟨d, hq, hr⟩ := Option.bind_eq_some_iff.mp h
      exact .conditional (matches_of_unify p hp) (matches_of_unify q hq) (matches_of_unify r hr)
    · exact absurd h (by simp)
  | .cast l r, _, _, _, h => by
    unfold unify at h
    split at h
    · obtain ⟨c, hl, hr⟩ := Option.bind_eq_some_iff.mp h
      exact .cast (matches_of_unify l hl) (matches_of_unify r hr)
    · exact absurd h (by simp)
  | .instanceOf l r, _, _, _, h => by
    unfold unify at h
    split at h
    · obtain ⟨c, hl, hr⟩ := Option.bind_eq_some_iff.mp h
      exact .instanceOf (matches_of_unify l hl) (matches_of_unify r hr)
    · exact absurd h (by simp)
  | .call p ps, _, _, _, h => by
    unfold unify at h
    split at h
    · obtain ⟨c, hp, hps⟩ := Option.bind_eq_some_iff.mp h
      exact .call (matches_of_unify p hp) (matches_of_unifyList ps hps)
    · exact absurd h (by simp)
  | .select p _ _, _, _, _, h => by
    unfold unify at h
    split at h
    · split at h
      · rename_i same
        obtain ⟨symbol, known, h⟩ := Option.bind_eq_some_iff.mp h
        obtain ⟨c, hp, h⟩ := Option.bind_eq_some_iff.mp h
        split at h
        · rename_i typed
          rw [same, ← Option.some.inj h]
          exact .select known (matches_of_unify p hp) typed
        · exact absurd h (by simp)
      · exact absurd h (by simp)
    · split at h
      · rename_i same
        obtain ⟨symbol, known, h⟩ := Option.bind_eq_some_iff.mp h
        split at h
        · rename_i member
          obtain ⟨owner, owned, h⟩ := Option.bind_eq_some_iff.mp h
          obtain ⟨c, hp, h⟩ := Option.bind_eq_some_iff.mp h
          split at h
          · rename_i typed
            rw [same, ← Option.some.inj h]
            exact .bareMember known member owned (matches_of_matchImplicit p hp) typed
          · exact absurd h (by simp)
        · exact absurd h (by simp)
      · exact absurd h (by simp)
    · exact absurd h (by simp)
  | .index l r, _, _, _, h => by
    unfold unify at h
    split at h
    · obtain ⟨c, hl, hr⟩ := Option.bind_eq_some_iff.mp h
      exact .index (matches_of_unify l hl) (matches_of_unify r hr)
    · exact absurd h (by simp)
  | .newArray element dims init, _, _, _, h => by
    unfold unify at h
    split at h
    · obtain ⟨c, hElement, h⟩ := Option.bind_eq_some_iff.mp h
      obtain ⟨d, hDims, hInit⟩ := Option.bind_eq_some_iff.mp h
      exact .newArray (matches_of_unifyOption element hElement) (matches_of_unifyList dims hDims)
        (matches_of_unifyInit init hInit)
    · exact absurd h (by simp)
  | .newObject p ps, _, _, _, h => by
    unfold unify at h
    split at h
    · obtain ⟨c, hp, hps⟩ := Option.bind_eq_some_iff.mp h
      exact .newObject (matches_of_unify p hp) (matches_of_unifyList ps hps)
    · exact absurd h (by simp)
  -- a target with parentheses loses them together with the pattern, any other one keeps its form
  | .paren p, _, _, _, h => by
    unfold unify at h
    split at h
    · exact .parenBoth (matches_of_unify p h)
    · exact .parenLeft (matches_of_unify p h)
  | .primitiveType _, _, _, _, h => by
    unfold unify at h
    split at h
    · split at h
      · rename_i same
        rw [← same, ← Option.some.inj h]
        exact .primitiveType
      · exact absurd h (by simp)
    · exact absurd h (by simp)
  | .typeApply p ps, _, _, _, h => by
    unfold unify at h
    split at h
    · obtain ⟨c, hp, hps⟩ := Option.bind_eq_some_iff.mp h
      exact .typeApply (matches_of_unify p hp) (matches_of_unifyList ps hps)
    · exact absurd h (by simp)
  | .arrayType p, _, _, _, h => by
    unfold unify at h
    split at h
    · exact .arrayType (matches_of_unify p h)
    · exact absurd h (by simp)
  | .anyOf ps, _, _, _, h => by
    unfold unify at h
    obtain ⟨p, hp, hm⟩ := matches_of_unifyFirst ps h
    exact .anyOf hp hm
  | .ofForm p _, _, _, _, h => by
    unfold unify at h
    split at h
    · rename_i form
      exact .ofForm form (matches_of_unify p h)
    · exact absurd h (by simp)

/-- A successful match of a list of expressions has a derivation. -/
theorem matches_of_unifyList : (ps : List ExprPattern) → {es : List Expr} →
    {a b : Bindings} → unifyList symbols ps es a = some b → Matches symbols (.list ps es) a b
  | [], [], _, _, h => by
    rw [unifyList] at h
    rw [← Option.some.inj h]
    exact .nil
  | [], _ :: _, _, _, h => absurd h (by simp [unifyList])
  | p :: ps, es, _, _, h => by
    unfold unifyList at h
    split at h
    · rename_i heq
      exact absurd heq (List.cons_ne_nil _ _)
    · rename_i heq
      rw [heq]
      exact .repeatedRest h
    · exact absurd h (by simp)
    · rename_i several one heq
      obtain ⟨rfl, rfl⟩ := List.cons_eq_cons.mp heq
      obtain ⟨c, hp, hps⟩ := Option.bind_eq_some_iff.mp h
      refine .cons ?_ (matches_of_unify p hp) (matches_of_unifyList ps hps)
      intro name hname
      cases ps with
      | nil => exact several name hname rfl
      | cons q qs => exact one name q qs hname rfl
    · exact absurd h (by simp)

/-- A successful match of an optional expression has a derivation. -/
theorem matches_of_unifyOption : (p : Option ExprPattern) → {e : Option Expr} →
    {a b : Bindings} → unifyOption symbols p e a = some b → Matches symbols (.option p e) a b
  | none, none, _, _, h => by
    rw [unifyOption] at h
    rw [← Option.some.inj h]
    exact .absent
  | some p, some _, _, _, h => .present (matches_of_unify p (by simpa only [unifyOption] using h))
  | none, some _, _, _, h | some _, none, _, _, h => absurd h (by simp [unifyOption])

/-- A successful match of an array initializer has a derivation. -/
theorem matches_of_unifyInit : (ps : Option (List ExprPattern)) → {es : Option (List Expr)} →
    {a b : Bindings} → unifyInit symbols ps es a = some b → Matches symbols (.init ps es) a b
  | none, none, _, _, h => by
    rw [unifyInit] at h
    rw [← Option.some.inj h]
    exact .noInit
  | some ps, some _, _, _, h =>
    .someInit (matches_of_unifyList ps (by simpa only [unifyInit] using h))
  | none, some _, _, _, h | some _, none, _, _, h => absurd h (by simp [unifyInit])

/-- A successful choice has a derivation for one of its alternatives. -/
theorem matches_of_unifyFirst : (ps : List ExprPattern) → {e : Expr} → {a b : Bindings} →
    unifyFirst symbols ps e a = some b → ∃ p ∈ ps, Matches symbols (.expr p e) a b
  | [], _, _, _, h => absurd h (by simp [unifyFirst])
  | p :: ps, _, _, _, h => by
    rw [unifyFirst] at h
    split at h
    · rename_i found hfound
      rw [h] at hfound
      exact ⟨p, List.mem_cons_self, matches_of_unify p hfound⟩
    · obtain ⟨q, hq, hm⟩ := matches_of_unifyFirst ps h
      exact ⟨q, List.mem_cons_of_mem _ hq, hm⟩

end

end ExprPattern

/-- A successful match of a declaration has a derivation. -/
theorem DeclPattern.matches_of_unify {p : DeclPattern} {d : VarDecl} {a b : Bindings}
    (h : p.unify symbols d a = some b) : Matches symbols (.decl p d) a b := by
  unfold DeclPattern.unify at h
  split at h
  · exact absurd h (by simp)
  · rename_i fresh
    obtain ⟨symbol, declared, h⟩ := Option.bind_eq_some_iff.mp h
    obtain ⟨c, hType, h⟩ := Option.bind_eq_some_iff.mp h
    obtain ⟨e, hInit, h⟩ := Option.bind_eq_some_iff.mp h
    exact .decl (Option.not_isSome_iff_eq_none.mp fresh) declared
      (ExprPattern.matches_of_unify _ hType) (ExprPattern.matches_of_unifyOption _ hInit)
      (Bindings.toOption_eq_some h)

namespace StmtPattern

mutual

/-- A successful match of a statement has a derivation. -/
theorem matches_of_unify : (p : StmtPattern) → {s : Stmt} → {a b : Bindings} →
    p.unify symbols s a = some b → Matches symbols (.stmt p s) a b
  | .block ps, _, _, _, h => by
    unfold unify at h
    split at h
    · exact .block (matches_of_unifyEach ps h)
    · exact absurd h (by simp)
  | .ifElse cond yes no, _, _, _, h => by
    unfold unify at h
    split at h
    · obtain ⟨c, hCond, h⟩ := Option.bind_eq_some_iff.mp h
      obtain ⟨d, hYes, hNo⟩ := Option.bind_eq_some_iff.mp h
      exact .ifElse (cond.matches_of_unify hCond) (matches_of_unify yes hYes)
        (matches_of_unifyOption no hNo)
    · exact absurd h (by simp)
  | .whileLoop cond body, _, _, _, h => by
    unfold unify at h
    split at h
    · obtain ⟨c, hCond, hBody⟩ := Option.bind_eq_some_iff.mp h
      exact .whileLoop (cond.matches_of_unify hCond) (matches_of_unify body hBody)
    · exact absurd h (by simp)
  | .doLoop body cond, _, _, _, h => by
    unfold unify at h
    split at h
    · obtain ⟨c, hBody, hCond⟩ := Option.bind_eq_some_iff.mp h
      exact .doLoop (matches_of_unify body hBody) (cond.matches_of_unify hCond)
    · exact absurd h (by simp)
  | .forLoop init cond update body, _, _, _, h => by
    unfold unify at h
    split at h
    · obtain ⟨c, hInit, h⟩ := Option.bind_eq_some_iff.mp h
      obtain ⟨d, hCond, h⟩ := Option.bind_eq_some_iff.mp h
      obtain ⟨e, hUpdate, hBody⟩ := Option.bind_eq_some_iff.mp h
      exact .forLoop (matches_of_unifyEach init hInit)
        (ExprPattern.matches_of_unifyOption cond hCond)
        (ExprPattern.matches_of_unifyList update hUpdate) (matches_of_unify body hBody)
    · exact absurd h (by simp)
  | .forEach var iterable body, _, _, _, h => by
    unfold unify at h
    split at h
    · obtain ⟨c, hVar, h⟩ := Option.bind_eq_some_iff.mp h
      obtain ⟨d, hIterable, hBody⟩ := Option.bind_eq_some_iff.mp h
      exact .forEach (DeclPattern.matches_of_unify hVar) (iterable.matches_of_unify hIterable)
        (matches_of_unify body hBody)
    · exact absurd h (by simp)
  | .ret value, _, _, _, h => by
    unfold unify at h
    split at h
    · exact .ret (ExprPattern.matches_of_unifyOption value h)
    · exact absurd h (by simp)
  | .raise value, _, _, _, h => by
    unfold unify at h
    split at h
    · exact .raise (value.matches_of_unify h)
    · exact absurd h (by simp)
  | .synchronized lock body, _, _, _, h => by
    unfold unify at h
    split at h
    · obtain ⟨c, hLock, hBody⟩ := Option.bind_eq_some_iff.mp h
      exact .synchronized (lock.matches_of_unify hLock) (matches_of_unify body hBody)
    · exact absurd h (by simp)
  | .expr value, _, _, _, h => by
    unfold unify at h
    split at h
    · exact .exprStmt (value.matches_of_unify h)
    · exact absurd h (by simp)
  | .empty, _, _, _, h => by
    unfold unify at h
    split at h
    · rw [← Option.some.inj h]
      exact .empty
    · exact absurd h (by simp)
  | .declare decl, _, _, _, h => by
    unfold unify at h
    split at h
    · exact .declare (DeclPattern.matches_of_unify h)
    · exact absurd h (by simp)

/-- A successful match of several statements has a derivation. -/
theorem matches_of_unifyEach : (ps : List StmtPattern) → {ss : List Stmt} →
    {a b : Bindings} → unifyEach symbols ps ss a = some b → Matches symbols (.stmts ps ss) a b
  | [], [], _, _, h => by
    rw [unifyEach] at h
    rw [← Option.some.inj h]
    exact .noStmts
  | p :: ps, _ :: _, _, _, h => by
    rw [unifyEach] at h
    obtain ⟨c, hp, hps⟩ := Option.bind_eq_some_iff.mp h
    exact .consStmt (matches_of_unify p hp) (matches_of_unifyEach ps hps)
  | [], _ :: _, _, _, h | _ :: _, [], _, _, h => absurd h (by simp [unifyEach])

/-- A successful match of an optional statement has a derivation. -/
theorem matches_of_unifyOption : (p : Option StmtPattern) → {s : Option Stmt} →
    {a b : Bindings} → unifyOption symbols p s a = some b →
    Matches symbols (.stmtOption p s) a b
  | none, none, _, _, h => by
    rw [unifyOption] at h
    rw [← Option.some.inj h]
    exact .noStmt
  | some p, some _, _, _, h =>
    .someStmt (matches_of_unify p (by simpa only [unifyOption] using h))
  | none, some _, _, _, h | some _, none, _, _, h => absurd h (by simp [unifyOption])

end

end StmtPattern

end JavaRefactor
