import JavaRefactor.Expansion.Expr
import JavaRefactor.Proofs.Expansion.Ensures
import JavaRefactor.Proofs.Matching.Lists
import JavaRefactor.Proofs.Matching.Sources

/-!
# Matching what a pattern became

Expanding a pattern under the bindings of a match writes new code, and the same pattern is
matched against that code.  The match goes through the variables of the pattern in their order
(`ExprPattern.uses`) and meets what each of them stands for: a variable below a unary operator
meets it without the parentheses around it (`ExprPattern.expand_retraces`).

So the match succeeds where all uses of a variable meet expressions that look alike.  That is
the case if no repeated variable is used twice and no variable that is used as an operand and
elsewhere stands for an expression in parentheses (`ExprPattern.unify_of_expand`).
-/

namespace JavaRefactor

/-! ### The uses of variables -/

/-- A place where a variable stands in a pattern. -/
inductive VariableUse where
  /-- The operand of a unary operator, which is matched without the parentheses around it. -/
  | operand (name : String)
  /-- Any other place that holds one expression. -/
  | plain (name : String)
  /-- The end of a list. -/
  | rest (name : String)
  deriving DecidableEq

namespace ExprPattern

mutual

/-- Whether a pattern is built from operations, calls, creations and type syntax with free
variables, literals and classes in them.  Repeated variables only end the lists of arguments and
of initial elements. -/
def isRematchable : ExprPattern → Bool
  | .literal _ | .free _ | .classRef _ | .primitiveType _ => true
  | .localVar _ | .typeVar _ | .staticRef .. | .select .. | .anyOf _ | .repeated _
  | .ofForm .. => false
  | .binary _ p q | .assign p q | .compoundAssign _ p q | .cast p q | .instanceOf p q
  | .index p q => isRematchable p && isRematchable q
  | .unary _ p | .paren p | .arrayType p => isRematchable p
  | .conditional p q r => isRematchable p && (isRematchable q && isRematchable r)
  | .call p ps | .newObject p ps => isRematchable p && isRematchableList ps
  | .newArray element dims init =>
    isRematchableOption element && (isRematchableEach dims && isRematchableInit init)
  | .typeApply p ps => isRematchable p && isRematchableEach ps

/-- Whether the patterns of a list, of which the last may be a repeated variable, are of this
kind. -/
def isRematchableList : List ExprPattern → Bool
  | [] => true
  | [.repeated _] => true
  | p :: ps => isRematchable p && isRematchableList ps

/-- Whether each of some patterns is of this kind. -/
def isRematchableEach : List ExprPattern → Bool
  | [] => true
  | p :: ps => isRematchable p && isRematchableEach ps

/-- Whether an optional pattern is of this kind. -/
def isRematchableOption : Option ExprPattern → Bool
  | none => true
  | some p => isRematchable p

/-- Whether an optional list of patterns is of this kind. -/
def isRematchableInit : Option (List ExprPattern) → Bool
  | none => true
  | some ps => isRematchableList ps

end

mutual

/-- The uses of the variables of a pattern that stands as an operand or elsewhere. -/
def usesAs (operand : Bool) : ExprPattern → List VariableUse
  | .literal _ | .localVar _ | .typeVar _ | .classRef _ | .staticRef .. | .primitiveType _
  | .anyOf _ => []
  | .free name | .repeated name => [if operand then .operand name else .plain name]
  | .binary _ p q | .assign p q | .compoundAssign _ p q | .cast p q | .instanceOf p q
  | .index p q => usesAs false p ++ usesAs false q
  | .unary _ p => usesAs true p
  | .paren p | .ofForm p _ => usesAs operand p
  | .arrayType p | .select p _ _ => usesAs false p
  | .conditional p q r => usesAs false p ++ (usesAs false q ++ usesAs false r)
  | .call p ps | .newObject p ps | .typeApply p ps => usesAs false p ++ usesInList ps
  | .newArray element dims init => usesInOption element ++ (usesInList dims ++ usesInInit init)

/-- The uses of the variables of a list of patterns. -/
def usesInList : List ExprPattern → List VariableUse
  | [] => []
  | [.repeated name] => [.rest name]
  | p :: ps => usesAs false p ++ usesInList ps

/-- The uses of the variables of an optional pattern. -/
def usesInOption : Option ExprPattern → List VariableUse
  | none => []
  | some p => usesAs false p

/-- The uses of the variables of an optional list of patterns. -/
def usesInInit : Option (List ExprPattern) → List VariableUse
  | none => []
  | some ps => usesInList ps

end

/-- The uses of the variables of a pattern, in the order in which they are matched. -/
def uses (p : ExprPattern) : List VariableUse := p.usesAs false

end ExprPattern

namespace VariableUse

/-- Match a use of a variable against what the variable stands for; a variable that stands for
nothing meets nothing. -/
def meet (stored b : Bindings) : VariableUse → Option Bindings
  | operand name =>
    match stored.free.lookup name with
    | some e => b.matchFree name e.skipParens
    | none => some b
  | plain name =>
    match stored.free.lookup name with
    | some e => b.matchFree name e
    | none => some b
  | rest name =>
    match stored.repeated.lookup name with
    | some es => b.matchRepeated name es
    | none => some b

/-- Match uses of variables, one after the other. -/
def meetAll (stored b : Bindings) (uses : List VariableUse) : Option Bindings :=
  uses.foldlM (meet stored) b

variable {stored b : Bindings}

/-- The first use is met first. -/
theorem meetAll_cons (use : VariableUse) (uses : List VariableUse) :
    meetAll stored b (use :: uses) = (use.meet stored b).bind fun b => meetAll stored b uses := rfl

/-- Uses side by side are met one group after the other. -/
theorem meetAll_append (uses more : List VariableUse) :
    meetAll stored b (uses ++ more)
      = (meetAll stored b uses).bind fun b => meetAll stored b more :=
  List.foldlM_append

/-- One use alone is met. -/
theorem meetAll_singleton (use : VariableUse) : meetAll stored b [use] = use.meet stored b :=
  Option.bind_fun_some (use.meet stored b)

end VariableUse

/-! ### Matching new code -/

open VariableUse

/-- Behind all parentheses there are none. -/
theorem Expr.skipParens_ne_paren (e : Expr) (i : NodeInfo) (inner : Expr) :
    e.skipParens ≠ .paren i inner := by
  induction e using skipParens.induct with
  | case1 j x ih =>
    rw [skipParens]
    exact ih
  | case2 e other =>
    rw [skipParens]
    · exact other i inner
    · exact other

namespace ExprPattern

variable {symbols : SymbolTable} {stored b : Bindings}

/-- A reference that is written to a class names the class. -/
theorem namesClass_qualifiedName (written name : String) :
    namesClass symbols name (.qualifiedName written (.ofClass name)) = true := by
  have reference (e : Expr) (unresolved : e.symbol? = none)
      (shape : (∃ i n s, e = .ident i n s) ∨ ∃ i r n s, e = .select i r n s) :
      namesClass symbols name (e.withType (.ofClass name)) = true := by
    rcases shape with ⟨i, n, s, rfl⟩ | ⟨i, r, n, s, rfl⟩ <;>
    · obtain rfl : s = none := unresolved
      simp [namesClass, Expr.withType, Expr.withInfo, SymbolTable.resolve?, Expr.symbol?, Expr.type,
        Expr.info, JavaType.className?]
  unfold Expr.qualifiedName
  refine reference _ ?_ ?_
  · split
    · rfl
    · rename_i first rest _
      rcases List.eq_nil_or_concat rest with rfl | ⟨front, last, rfl⟩
      · rfl
      · rw [List.concat_eq_append, List.foldl_append]
        rfl
  · split
    · exact .inl ⟨_, _, _, rfl⟩
    · rename_i first rest _
      rcases List.eq_nil_or_concat rest with rfl | ⟨front, last, rfl⟩
      · exact .inl ⟨_, _, _, rfl⟩
      · rw [List.concat_eq_append, List.foldl_append]
        exact .inr ⟨_, _, _, _, rfl⟩

/-- Matching a pattern against an expression goes through the uses of its variables, also where
the expression is an operand. -/
structure Retraces (symbols : SymbolTable) (stored : Bindings) (p : ExprPattern) (e : Expr) :
    Prop where
  plain : ∀ b, p.unify symbols e b = meetAll stored b (p.usesAs false)
  operand : ∀ b, p.unify symbols e.skipParens b = meetAll stored b (p.usesAs true)

/-- A node that is not in parentheses is the same as an operand. -/
theorem Retraces.of_node {p : ExprPattern} {e : Expr} (bare : e.skipParens = e)
    (same : p.usesAs true = p.usesAs false)
    (plain : ∀ b, p.unify symbols e b = meetAll stored b (p.usesAs false)) :
    Retraces symbols stored p e := by
  refine ⟨plain, ?_⟩
  intro b
  rw [bare, same]
  exact plain b

/-- A reference to a class is matched by any expression that names the class. -/
theorem Retraces.of_namesClass {name : String} {e : Expr}
    (named : namesClass symbols name e = true) : Retraces symbols stored (.classRef name) e := by
  refine .of_node ?_ rfl ?_
  · cases e <;> first | rfl | exact absurd named Bool.false_ne_true
  · intro b
    rw [unify, if_pos named]
    rfl

/-- Parentheses in a pattern are matched by the ones that they become, or are left out. -/
theorem Retraces.paren {p : ExprPattern} {e : Expr} (h : Retraces symbols stored p e)
    (i : NodeInfo) : Retraces symbols stored (.paren p) (.paren i e) := by
  constructor
  · intro b
    rw [unify, usesAs]
    exact h.plain b
  · intro b
    have other := Expr.skipParens_ne_paren e
    rw [Expr.skipParens, usesAs, ← h.operand, unify]
    exact other

/-- Matching a list of patterns against expressions goes through the uses of their variables. -/
def RetracesList (symbols : SymbolTable) (stored : Bindings) (ps : List ExprPattern)
    (es : List Expr) : Prop :=
  ∀ b, unifyList symbols ps es b = meetAll stored b (usesInList ps)

variable {c : ExpansionContext}

/-- A pattern of this kind is not a variable for several expressions. -/
theorem isRematchable_ne_repeated {p : ExprPattern} (h : p.isRematchable = true) (name : String) :
    p ≠ .repeated name := by
  rintro rfl
  exact absurd h (by simp [isRematchable])

/-- A list that begins with one pattern for one expression is matched part by part. -/
theorem RetracesList.cons {p : ExprPattern} {ps : List ExprPattern} {e : Expr} {es : List Expr}
    (single : ∀ name, p ≠ .repeated name) (h : Retraces symbols stored p e)
    (hs : RetracesList symbols stored ps es) :
    RetracesList symbols stored (p :: ps) (e :: es) := by
  intro b
  have uses : usesInList (p :: ps) = p.usesAs false ++ usesInList ps := by
    rw [usesInList]
    simp_all
  rw [unifyList_cons single, uses, meetAll_append, h.plain]
  exact congrArg _ (funext hs)

/-- The same for the optional parts of a creation of an array. -/
def RetracesOption (symbols : SymbolTable) (stored : Bindings) (p : Option ExprPattern)
    (e : Option Expr) : Prop :=
  ∀ b, unifyOption symbols p e b = meetAll stored b (usesInOption p)

/-- The same for the optional initial elements of an array. -/
def RetracesInit (symbols : SymbolTable) (stored : Bindings) (ps : Option (List ExprPattern))
    (es : Option (List Expr)) : Prop :=
  ∀ b, unifyInit symbols ps es b = meetAll stored b (usesInInit ps)

/-- A repeated variable at the end of a list takes what it became. -/
theorem expandList_repeated_retraces (name : String) :
    (expandList c [.repeated name]).Ensures (RetracesList symbols c.bindings [.repeated name]) := by
  rw [expandList, ExpansionContext.repeatedNamed]
  split
  · rename_i es found
    refine .bind (.pure rfl) fun a ha => .bind (.pure rfl) fun d hd => .pure fun b => ?_
    subst ha hd
    rw [List.append_nil, unifyList, usesInList, meetAll_singleton, meet, found]
  · exact .bind (.throw _) fun _ none => absurd none not_false

/-- A list of patterns is a repeated variable, or it begins with a pattern for one expression. -/
theorem isRematchableList_cons {p : ExprPattern} {ps : List ExprPattern}
    (h : isRematchableList (p :: ps) = true) :
    (∃ name, p = .repeated name ∧ ps = []) ∨
      p.isRematchable = true ∧ isRematchableList ps = true := by
  unfold isRematchableList at h
  split at h
  · exact absurd ‹p :: ps = []› (List.cons_ne_nil p ps)
  · rename_i name list
    exact .inl ⟨name, List.cons_eq_cons.mp list⟩
  · rename_i q qs _ list
    obtain ⟨rfl, rfl⟩ := List.cons_eq_cons.mp list
    exact .inr (Bool.and_eq_true _ _ ▸ h)

/-- If each of some patterns is of this kind, so is the list of them. -/
theorem isRematchableList_of_each {ps : List ExprPattern} (h : isRematchableEach ps = true) :
    isRematchableList ps = true := by
  induction ps with
  | nil => rfl
  | cons p ps ih =>
    rw [isRematchableEach, Bool.and_eq_true] at h
    rw [isRematchableList, h.1, ih h.2]
    · rfl
    · rintro name rfl
      exact absurd rfl (isRematchable_ne_repeated h.1 name)

mutual

/-- Matching a pattern against what it became goes through the uses of its variables. -/
theorem expand_retraces : (p : ExprPattern) → p.isRematchable = true →
    (p.expand c).Ensures (Retraces symbols c.bindings p)
  | .literal value, _ => .pure (.of_node rfl rfl fun b => by
      rw [Expr.ofLiteral, unify, if_pos rfl]
      rfl)
  | .free name, _ => by
    rw [expand, ExpansionContext.freeNamed]
    split
    · rename_i e found
      refine .pure ⟨fun b => ?_, fun b => ?_⟩
      · rw [usesAs, if_neg Bool.false_ne_true, meetAll_singleton, meet, found, unify]
      · rw [usesAs, if_pos rfl, meetAll_singleton, meet, found, unify]
    · exact .throw _
  | .classRef name, _ => by
    rw [expand]
    exact Importing.Ensures.lift (.bind (.trivial _) fun _ _ =>
      .pure (.of_namesClass (namesClass_qualifiedName _ name)))
  | .primitiveType kind, _ => .pure (.of_node rfl rfl fun b => by
      rw [unify, if_pos rfl]
      rfl)
  | .binary op l r, h | .compoundAssign op l r, h => by
    rw [expand]
    rw [isRematchable, Bool.and_eq_true] at h
    exact .bind (expand_retraces l h.1) fun a ha => .bind (expand_retraces r h.2) fun d hd =>
      .pure (.of_node rfl rfl fun b => by
        rw [unify, if_pos rfl, usesAs, meetAll_append, ha.plain]
        exact congrArg _ (funext hd.plain))
  | .assign l r, h | .cast l r, h | .instanceOf l r, h | .index l r, h => by
    rw [expand]
    rw [isRematchable, Bool.and_eq_true] at h
    exact .bind (expand_retraces l h.1) fun a ha => .bind (expand_retraces r h.2) fun d hd =>
      .pure (.of_node rfl rfl fun b => by
        rw [unify, usesAs, meetAll_append, ha.plain]
        exact congrArg _ (funext hd.plain))
  -- the operand is matched without its parentheses, so that its uses are met as those of an operand
  | .unary op p, h => by
    rw [expand]
    rw [isRematchable] at h
    exact .bind (expand_retraces p h) fun a ha => .pure (.of_node rfl rfl fun b => by
      rw [unify, if_pos rfl, usesAs]
      exact ha.operand b)
  | .paren p, h => by
    rw [expand]
    rw [isRematchable] at h
    exact .bind (expand_retraces p h) fun a ha => .pure (ha.paren _)
  | .arrayType p, h => by
    rw [expand]
    rw [isRematchable] at h
    exact .bind (expand_retraces p h) fun a ha => .pure (.of_node rfl rfl fun b => by
      rw [unify, usesAs]
      exact ha.plain b)
  | .conditional p q r, h => by
    rw [expand]
    rw [isRematchable, Bool.and_eq_true, Bool.and_eq_true] at h
    exact .bind (expand_retraces p h.1) fun a ha => .bind (expand_retraces q h.2.1) fun d hd =>
      .bind (expand_retraces r h.2.2) fun e he => .pure (.of_node rfl rfl fun b => by
        rw [unify, usesAs, meetAll_append, ha.plain]
        refine congrArg _ (funext fun b => ?_)
        rw [meetAll_append, hd.plain]
        exact congrArg _ (funext he.plain))
  | .call p ps, h | .newObject p ps, h => by
    rw [expand]
    rw [isRematchable, Bool.and_eq_true] at h
    exact .bind (expand_retraces p h.1) fun a ha => .bind (expandList_retraces ps h.2)
      fun as has => .pure (.of_node rfl rfl fun b => by
        rw [unify, usesAs, meetAll_append, ha.plain]
        exact congrArg _ (funext has))
  | .typeApply p ps, h => by
    rw [expand]
    rw [isRematchable, Bool.and_eq_true] at h
    exact .bind (expand_retraces p h.1) fun a ha => .bind (expandEach_retraces ps h.2)
      fun as has => .pure (.of_node rfl rfl fun b => by
        rw [unify, usesAs, meetAll_append, ha.plain]
        exact congrArg _ (funext has))
  | .newArray element dims init, h => by
    rw [expand]
    rw [isRematchable, Bool.and_eq_true, Bool.and_eq_true] at h
    exact .bind (expandOption_retraces element h.1) fun a ha =>
      .bind (expandList_retraces dims (isRematchableList_of_each h.2.1)) fun as has =>
        .bind (expandInit_retraces init h.2.2) fun bs hbs => .pure (.of_node rfl rfl fun b => by
          rw [unify, usesAs, meetAll_append, ha b]
          refine congrArg _ (funext fun b => ?_)
          rw [meetAll_append, has b]
          exact congrArg _ (funext hbs))

/-- The expansion of a list of patterns is matched as its uses are met. -/
theorem expandList_retraces : (ps : List ExprPattern) → isRematchableList ps = true →
    (expandList c ps).Ensures (RetracesList symbols c.bindings ps)
  | [], _ => .pure fun _ => by
    rw [unifyList]
    rfl
  | p :: ps, h => by
    rcases isRematchableList_cons h with ⟨name, rfl, rfl⟩ | ⟨hp, hps⟩
    · exact expandList_repeated_retraces name
    · have single := isRematchable_ne_repeated hp
      have parts : expandList c (p :: ps) = do
          let e ← expand c p
          return e :: (← expandList c ps) := by
        rw [expandList]
        exact single
      rw [parts]
      exact .bind (expand_retraces p hp) fun a ha => .bind (expandList_retraces ps hps)
        fun as has => .pure (.cons single ha has)

theorem expandEach_retraces : (ps : List ExprPattern) → isRematchableEach ps = true →
    (expandEach c ps).Ensures (RetracesList symbols c.bindings ps)
  | [], _ => .pure fun _ => by
    rw [unifyList]
    rfl
  | p :: ps, h => by
    rw [expandEach]
    rw [isRematchableEach, Bool.and_eq_true] at h
    exact .bind (expand_retraces p h.1) fun a ha => .bind (expandEach_retraces ps h.2)
      fun as has => .pure (.cons (isRematchable_ne_repeated h.1) ha has)

theorem expandOption_retraces : (p : Option ExprPattern) → isRematchableOption p = true →
    (expandOption c p).Ensures (RetracesOption symbols c.bindings p)
  | none, _ => .pure fun _ => by
    rw [unifyOption]
    rfl
  | some p, h => by
    rw [expandOption]
    exact .bind (expand_retraces p h) fun a ha => .pure fun b => by
      rw [unifyOption, usesInOption]
      exact ha.plain b

theorem expandInit_retraces : (ps : Option (List ExprPattern)) → isRematchableInit ps = true →
    (expandInit c ps).Ensures (RetracesInit symbols c.bindings ps)
  | none, _ => .pure fun _ => by
    rw [unifyInit]
    rfl
  | some ps, h => by
    rw [expandInit]
    exact .bind (expandList_retraces ps h) fun as has => .pure fun b => by
      rw [unifyInit, usesInInit]
      exact has b

end

end ExprPattern

/-! ### What a match binds -/

namespace Bindings

/-- No variable stands for a bare `super`. -/
structure NoSuper (b : Bindings) : Prop where
  free : ∀ name e, b.free.lookup name = some e → e.form ≠ .super
  repeated : ∀ name es, b.repeated.lookup name = some es → ∀ e ∈ es, e.form ≠ .super

variable {a b : Bindings} {name : String}

/-- Nothing that is bound yet is `super`. -/
theorem noSuper_empty : NoSuper empty :=
  ⟨fun _ _ h => absurd h (by simp [empty]), fun _ _ h => absurd h (by simp [empty])⟩

/-- Matching a variable for one expression never binds `super`. -/
theorem NoSuper.matchFree {e : Expr} (ha : a.NoSuper) (h : a.matchFree name e = some b) :
    b.NoSuper := by
  obtain ⟨⟨allowed, -⟩, ⟨-, inserted⟩ | ⟨_, -, -, rfl⟩⟩ := matchFree_eq_some h
  · obtain ⟨free, hfree, rfl⟩ := insertFree_eq_ok inserted
    refine ⟨?_, ha.repeated⟩
    intro n x hx
    rcases Assignments.lookup_of_insert? hfree hx with hx | ⟨-, rfl⟩
    · exact ha.free n x hx
    · exact allowed
  · exact ha

/-- Binding a type parameter binds no expression. -/
theorem NoSuper.insertType {type : TypeBinding} (ha : a.NoSuper)
    (h : a.insertType name type = .ok b) : b.NoSuper := by
  obtain ⟨types, -, rfl⟩ := insertType_eq_ok h
  exact ⟨ha.free, ha.repeated⟩

/-- Matching a variable for several expressions never binds `super`. -/
theorem NoSuper.matchRepeated {es : List Expr} (ha : a.NoSuper)
    (h : a.matchRepeated name es = some b) : b.NoSuper := by
  obtain ⟨items, hitems, inserted⟩ := matchRepeated_eq_some h
  obtain ⟨repeated, hrepeated, rfl⟩ := insertRepeated_eq_ok inserted
  refine ⟨ha.free, ?_⟩
  intro n xs hxs x hx
  rcases Assignments.lookup_of_insert? hrepeated hxs with hxs | ⟨-, rfl⟩
  · exact ha.repeated n xs hxs x hx
  · obtain ⟨e, -, taken⟩ := exists_of_mem_mapM hitems hx
    obtain ⟨matched, hmatched, found⟩ := Option.bind_eq_some_iff.mp taken
    exact (ha.matchFree hmatched).free name x found

/-- A step keeps `super` out. -/
theorem NoSuper.step {P : Expr → Prop} {declares : Bool} (ha : a.NoSuper)
    (h : BindStep P declares a b) : b.NoSuper := by
  cases h with
  | free _ h => exact ha.matchFree h
  | type _ h =>
    obtain ⟨-, inserted⟩ | ⟨_, -, -, rfl⟩ := matchType_eq_some h
    · exact ha.insertType inserted
    · exact ha
  | repeated _ h => exact ha.matchRepeated h
  | declare _ h =>
    obtain ⟨locals, -, rfl⟩ := insertLocal_eq_ok h
    exact ⟨ha.free, ha.repeated⟩

end Bindings

/-- A match keeps `super` out. -/
theorem Matches.noSuper {symbols : SymbolTable} {g : MatchGoal} {a b : Bindings}
    (h : Matches symbols g a b) (ha : a.NoSuper) : b.NoSuper := by
  have anything : g.All fun _ => True := by
    cases g <;> simp [MatchGoal.All, Expr.All, Stmt.All]
  have run := h.steps (fun _ => True.intro) anything
  clear h
  induction run with
  | refl => exact ha
  | tail _ step ih => exact ih.step step

/-- Binding the types that were inferred binds no expression. -/
theorem TemplateHeader.bindInferred_noSuper {found : Substitution} {vars : List String}
    {a b : Bindings} (ha : a.NoSuper) (h : bindInferred found vars a = some b) : b.NoSuper := by
  induction vars generalizing a with
  | nil =>
    rw [bindInferred] at h
    rw [← Option.some.inj h]
    exact ha
  | cons var vars ih =>
    rw [bindInferred] at h
    split at h
    · rename_i inserted
      exact ih (ha.insertType inserted) h
    · exact absurd h (by simp)

/-- The bindings of a match in a unit: what matching a pattern from the beginning gives, before
and after the types are checked. -/
inductive MatchContext.Finds (c : MatchContext) : Bindings → Prop where
  | expr {p : ExprPattern} {target : Expr} {b : Bindings}
      (matched : p.unify c.unit.symbols target .empty = some b) : Finds c b
  | stmts {ps : List StmtPattern} {targets : List Stmt} {b : Bindings}
      (matched : StmtPattern.unifyEach c.unit.symbols ps targets .empty = some b) : Finds c b
  | typed {h : TemplateHeader} {result : Option (TypePattern × JavaType)} {a b : Bindings}
      (found : Finds c a) (accepted : h.typeCheck c.table a result = some b) : Finds c b

/-- Nothing that a template finds is `super`. -/
theorem MatchContext.Finds.noSuper {c : MatchContext} {b : Bindings} (h : c.Finds b) :
    b.NoSuper := by
  induction h with
  | expr matched => exact (ExprPattern.matches_of_unify _ matched).noSuper Bindings.noSuper_empty
  | stmts matched =>
    exact (StmtPattern.matches_of_unifyEach _ matched).noSuper Bindings.noSuper_empty
  | typed _ accepted ih =>
    obtain ⟨_, -, accepted⟩ := Option.bind_eq_some_iff.mp accepted
    obtain ⟨_, -, accepted⟩ := Option.bind_eq_some_iff.mp accepted
    obtain ⟨_, -, accepted⟩ := Option.bind_eq_some_iff.mp accepted
    obtain ⟨bound, inferred, accepted⟩ := Option.bind_eq_some_iff.mp accepted
    split at accepted
    · rw [← Option.some.inj accepted]
      exact TemplateHeader.bindInferred_noSuper ih inferred
    · exact absurd accepted (by simp)

/-! ### Meeting the variables again -/

/-- What is not in parentheses has none to skip. -/
theorem Expr.skipParens_of_form {e : Expr} (h : e.form ≠ .paren) : e.skipParens = e := by
  rw [skipParens]
  rintro i inner rfl
  exact h rfl

/-- Every expression looks like itself. -/
theorem Expr.looksLike_refl (e : Expr) : e.looksLike e = true := by
  rw [looksLike, JavaType.isSame_refl, Bool.true_and, beq_self_eq_true]

namespace VariableUse

/-- The expression that a use for a single expression meets, with the name of the variable. -/
def single? (stored : Bindings) : VariableUse → Option (String × Expr)
  | operand name => (stored.free.lookup name).map fun e => (name, e.skipParens)
  | plain name => (stored.free.lookup name).map fun e => (name, e)
  | rest _ => none

/-- Uses of variables fit together: they can all be met, one after the other. -/
structure Fit (stored : Bindings) (uses : List VariableUse) : Prop where
  agree : ∀ use ∈ uses, ∀ other ∈ uses, ∀ name e e', use.single? stored = some (name, e) →
    other.single? stored = some (name, e') → e = e'
  allowed : ∀ use ∈ uses, ∀ name e, use.single? stored = some (name, e) → e.form ≠ .super
  elements : ∀ name es, stored.repeated.lookup name = some es → ∀ e ∈ es, e.form ≠ .super
  apart : ∀ name, .rest name ∈ uses → ∀ use ∈ uses, ∀ e, use.single? stored ≠ some (name, e)
  once : ∀ name, uses.count (.rest name) ≤ 1

/-- Everything that is bound was met in some use. -/
structure Met (stored : Bindings) (uses : List VariableUse) (b : Bindings) : Prop where
  locals : b.locals = []
  free : ∀ name e, b.free.lookup name = some e →
    ∃ use ∈ uses, use.single? stored = some (name, e)
  repeated : ∀ name es, b.repeated.lookup name = some es → .rest name ∈ uses

variable {stored b : Bindings} {done todo : List VariableUse} {name : String} {e : Expr}

/-- Nothing is bound before the first use. -/
theorem met_empty : Met stored [] .empty :=
  ⟨rfl, fun _ _ h => absurd h (by simp [Bindings.empty]),
    fun _ _ h => absurd h (by simp [Bindings.empty])⟩

/-- What was met in some uses was met in those and more. -/
theorem Met.append (h : Met stored done b) (more : List VariableUse) :
    Met stored (done ++ more) b := by
  refine ⟨h.locals, fun name e found => ?_, fun name es found => ?_⟩
  · obtain ⟨use, hmem, hsingle⟩ := h.free name e found
    exact ⟨use, List.mem_append_left more hmem, hsingle⟩
  · exact List.mem_append_left more (h.repeated name es found)

/-- A use for a single expression meets what is stored, for an operand without parentheses. -/
theorem single?_eq_some {use : VariableUse} (h : use.single? stored = some (name, e)) :
    ∃ x, stored.free.lookup name = some x ∧
      (use = .operand name ∧ e = x.skipParens ∨ use = .plain name ∧ e = x) := by
  cases use with
  | operand n =>
    obtain ⟨x, found, same⟩ := Option.map_eq_some_iff.mp h
    obtain ⟨rfl, rfl⟩ := Prod.mk.inj same
    exact ⟨x, found, .inl ⟨rfl, rfl⟩⟩
  | plain n =>
    obtain ⟨x, found, same⟩ := Option.map_eq_some_iff.mp h
    obtain ⟨rfl, rfl⟩ := Prod.mk.inj same
    exact ⟨x, found, .inr ⟨rfl, rfl⟩⟩
  | rest n => exact absurd h (by simp [single?])

/-- A use for a single expression is met by matching its variable. -/
theorem meet_of_single {use : VariableUse} (h : use.single? stored = some (name, e)) :
    use.meet stored b = b.matchFree name e := by
  obtain ⟨x, found, ⟨rfl, rfl⟩ | ⟨rfl, rfl⟩⟩ := single?_eq_some h <;>
  · rw [meet, found]

/-- Without declared locals, a variable may stand for everything but `super`. -/
theorem Met.mayCapture (met : Met stored done b) (allowed : e.form ≠ .super) : b.MayCapture e := by
  constructor
  · exact allowed
  · intro symbol declared
    rw [Bindings.localSymbols, met.locals] at declared
    exact absurd declared (by simp)

/-- Without declared locals, an expression is met that agrees with what is bound. -/
theorem Met.matchFree (met : Met stored done b) (allowed : e.form ≠ .super)
    (agree : ∀ x, b.free.lookup name = some x → x = e) :
    ∃ b', b.matchFree name e = some b' ∧ b'.locals = [] ∧ b'.repeated = b.repeated ∧
      ∀ n x, b'.free.lookup n = some x → b.free.lookup n = some x ∨ n = name ∧ x = e := by
  have may : b.MayCapture e := met.mayCapture allowed
  cases found : b.free.lookup name with
  | none =>
    refine ⟨_, (Bindings.matchFree_of_unbound found).mpr ⟨may, rfl⟩, met.locals, rfl, ?_⟩
    intro n x hx
    exact Assignments.lookup_of_insert? (Assignments.insert?_of_unbound found e) hx
  | some x =>
    have free : ¬(decide (e.form = .super) || b.localSymbols.any e.references) = true := by
      simpa [may.1] using may.2
    refine ⟨b, ?_, met.locals, rfl, fun n y hy => .inl hy⟩
    rw [Bindings.matchFree, if_neg free, found, agree x found]
    exact if_pos (Expr.looksLike_refl e)

/-- A use for a single expression that fits to those before is met. -/
theorem Met.step_single {use : VariableUse} (fit : Fit stored (done ++ use :: todo))
    (met : Met stored done b) (single : use.single? stored = some (name, e)) :
    ∃ b', use.meet stored b = some b' ∧ Met stored (done ++ [use]) b' := by
  have now : use ∈ done ++ use :: todo := List.mem_append_right done List.mem_cons_self
  have agree (x : Expr) (found : b.free.lookup name = some x) : x = e := by
    obtain ⟨other, hother, hsingle⟩ := met.free name x found
    exact fit.agree other (List.mem_append_left _ hother) use now name x e hsingle single
  obtain ⟨b', matched, locals, repeated, bound⟩ :=
    met.matchFree (fit.allowed use now name e single) agree
  refine ⟨b', (meet_of_single single).trans matched, locals, fun n x hx => ?_, fun n es hes => ?_⟩
  · rcases bound n x hx with old | ⟨rfl, rfl⟩
    · exact (met.append [use]).free n x old
    · exact ⟨use, List.mem_append_right done List.mem_cons_self, single⟩
  · exact (met.append [use]).repeated n es (repeated ▸ hes)

/-- A use for the rest of a list that fits to those before is met. -/
theorem Met.step_rest {es : List Expr} (fit : Fit stored (done ++ .rest name :: todo))
    (met : Met stored done b) (found : stored.repeated.lookup name = some es) :
    ∃ b', b.matchRepeated name es = some b' ∧ Met stored (done ++ [.rest name]) b' := by
  have now : .rest name ∈ done ++ .rest name :: todo :=
    List.mem_append_right done List.mem_cons_self
  have unbound : b.free.lookup name = none := by
    refine Option.eq_none_iff_forall_ne_some.mpr fun e he => ?_
    obtain ⟨other, hother, hsingle⟩ := met.free name e he
    exact fit.apart name now other (List.mem_append_left _ hother) e hsingle
  have fresh : b.repeated.lookup name = none := by
    refine Option.eq_none_iff_forall_ne_some.mpr fun xs hxs => ?_
    have before : 0 < done.count (.rest name) := List.count_pos_iff.mpr (met.repeated name xs hxs)
    have once := fit.once name
    rw [List.count_append, List.count_cons_self] at once
    omega
  have may : ∀ e ∈ es, b.MayCapture e := by
    intro e he
    exact met.mayCapture (fit.elements name es found e he)
  refine ⟨_, (Bindings.matchRepeated_eq_some_iff unbound).mpr ⟨fresh, may, rfl⟩, met.locals,
    (met.append [.rest name]).free, ?_⟩
  intro n xs hxs
  rcases Assignments.lookup_of_insert? (Assignments.insert?_of_unbound fresh es) hxs with
    old | ⟨rfl, -⟩
  · exact (met.append [.rest name]).repeated n xs old
  · exact List.mem_append_right done List.mem_cons_self

/-- One more use is met. -/
theorem Met.step {use : VariableUse} (fit : Fit stored (done ++ use :: todo))
    (met : Met stored done b) :
    ∃ b', use.meet stored b = some b' ∧ Met stored (done ++ [use]) b' := by
  cases use with
  | operand name | plain name =>
    cases found : stored.free.lookup name with
    | some e => exact met.step_single fit (congrArg (Option.map _) found)
    | none =>
      refine ⟨b, ?_, met.append _⟩
      rw [meet, found]
  | rest name =>
    cases found : stored.repeated.lookup name with
    | some es =>
      rw [meet, found]
      exact met.step_rest fit found
    | none =>
      refine ⟨b, ?_, met.append _⟩
      rw [meet, found]

/-- Uses that fit together are met, one after the other. -/
theorem Met.run (fit : Fit stored (done ++ todo)) (met : Met stored done b) :
    ∃ b', meetAll stored b todo = some b' := by
  induction todo generalizing done b with
  | nil => exact ⟨b, rfl⟩
  | cons use todo ih =>
    obtain ⟨b', hmeet, met'⟩ := met.step fit
    rw [meetAll_cons, hmeet]
    exact ih (by rwa [List.append_assoc]) met'

/-- The uses of a pattern fit together under the bindings of a match, if its repeated variables
are used once and apart from the others, and a variable in parentheses is not used both as an
operand and elsewhere. -/
theorem fit_of_noSuper {uses : List VariableUse} (stands : stored.NoSuper)
    (apart : ∀ name, .rest name ∈ uses → .operand name ∉ uses ∧ .plain name ∉ uses)
    (once : ∀ name, uses.count (.rest name) ≤ 1)
    (bare : ∀ name x, stored.free.lookup name = some x → .operand name ∈ uses →
      x.skipParens.form ≠ .super ∧ (.plain name ∈ uses → x.form ≠ .paren)) :
    Fit stored uses where
  agree use huse other hother name e e' single single' := by
    obtain ⟨x, found, seen⟩ := single?_eq_some single
    obtain ⟨x', found', seen'⟩ := single?_eq_some single'
    obtain rfl : x = x' := Option.some.inj (found.symm.trans found')
    have same (operand : .operand name ∈ uses) (plain : .plain name ∈ uses) : x.skipParens = x :=
      Expr.skipParens_of_form ((bare name x found operand).2 plain)
    rcases seen with ⟨rfl, rfl⟩ | ⟨rfl, rfl⟩ <;> rcases seen' with ⟨rfl, rfl⟩ | ⟨rfl, rfl⟩
    · rfl
    · exact same huse hother
    · exact (same hother huse).symm
    · rfl
  allowed use huse name e single := by
    obtain ⟨x, found, ⟨rfl, rfl⟩ | ⟨rfl, rfl⟩⟩ := single?_eq_some single
    · exact (bare name x found huse).1
    · exact stands.free name e found
  elements := stands.repeated
  apart name rest use huse e single := by
    obtain ⟨x, -, ⟨rfl, -⟩ | ⟨rfl, -⟩⟩ := single?_eq_some single
    · exact (apart name rest).1 huse
    · exact (apart name rest).2 huse
  once := once

end VariableUse

namespace ExprPattern

/-- Matching a pattern against what it became succeeds under the bindings of a match, if no
repeated variable is used twice and what a variable stands for is in parentheses only where the
variable is not used both as an operand and elsewhere. -/
theorem unify_of_expand {c : MatchContext} {policy : ImportPolicy} {p : ExprPattern}
    {b : Bindings} {e : Expr} {pending pending' : PendingImports}
    (shape : p.isRematchable = true)
    (apart : ∀ name, .rest name ∈ p.uses → .operand name ∉ p.uses ∧ .plain name ∉ p.uses)
    (once : ∀ name, p.uses.count (.rest name) ≤ 1)
    (bare : ∀ name x, b.free.lookup name = some x → .operand name ∈ p.uses →
      x.skipParens.form ≠ .super ∧ (.plain name ∈ p.uses → x.form ≠ .paren))
    (found : c.Finds b)
    (new : (p.expand (c.expansion b policy)).run pending = (.ok e, pending')) :
    ∃ b', p.unify c.unit.symbols e .empty = some b' := by
  have retraced : Retraces c.unit.symbols b p e :=
    expand_retraces p shape pending e pending' new
  rw [retraced.plain]
  exact Met.run (fit_of_noSuper found.noSuper apart once bare) met_empty

end ExprPattern

/-! ### Parentheses and lists that are met twice -/

private def bareContext : MatchContext := ⟨.ofDeclarations none [] [] .empty, .rootOnly⟩

private def fName : Expr := .ident (.ofType (.method [.primitive .int] (.primitive .int))) "f" none

private def xName : Expr := .ident (.ofType (.primitive .int)) "x" none

/-- `(x)`. -/
private def parenX : Expr := .paren xName.info xName

/-- What the variables of `f(a, xs...)` stand for in `f((x), x)`. -/
private def callBindings : Bindings where
  free := [("f", fName), ("a", parenX)]
  repeated := [("xs", [xName])]

/-- The bindings of the example are found. -/
private theorem finds_call : bareContext.Finds callBindings := by
  have matched : (ExprPattern.call (.free "f") [.free "a", .repeated "xs"]).unify
      bareContext.unit.symbols (.call (.ofType (.primitive .int)) fName [parenX, xName]) .empty
        = some callBindings := rfl
  exact .expr matched

/-- `f(-a, xs...)`. -/
private def negatedCall : ExprPattern :=
  .call (.free "f") [.unary .minus (.free "a"), .repeated "xs"]

/-- `f(-a, xs...)` becomes `f(-(x), x)`, and it matches that. -/
theorem unify_of_expand_call :
    (negatedCall.expand (bareContext.expansion callBindings .direct)).run .empty
        = (.ok (.call (.ofType (.primitive .int)) fName
            [.unary (.ofType (.primitive .int)) .minus parenX, xName]), .empty) ∧
      ∃ b, negatedCall.unify bareContext.unit.symbols (.call (.ofType (.primitive .int)) fName
        [.unary (.ofType (.primitive .int)) .minus parenX, xName]) .empty = some b := by
  have new : (negatedCall.expand (bareContext.expansion callBindings .direct)).run .empty
      = (.ok (.call (.ofType (.primitive .int)) fName
          [.unary (.ofType (.primitive .int)) .minus parenX, xName]), .empty) := rfl
  have uses : negatedCall.uses = [.plain "f", .operand "a", .rest "xs"] := rfl
  refine ⟨new, ExprPattern.unify_of_expand rfl ?_ ?_ ?_ finds_call new⟩
  · intro name rest
    rw [uses] at rest ⊢
    obtain rfl : name = "xs" := by simpa using rest
    decide
  · intro name
    rw [uses]
    by_cases same : name = "xs"
    · subst same
      decide
    · simp [Ne.symm same]
  · intro name e found operand
    rw [uses] at operand ⊢
    obtain rfl : name = "a" := by simpa using operand
    obtain rfl : e = parenX := (Option.some.inj found).symm
    exact ⟨by decide, by decide⟩

/-- `f(xs...) + f(xs...)`. -/
private def listedTwice : ExprPattern :=
  .binary .add (.call (.free "f") [.repeated "xs"]) (.call (.free "f") [.repeated "xs"])

/-- `a + -a`. -/
private def besideOperand : ExprPattern := .binary .add (.free "a") (.unary .minus (.free "a"))

/-- `-a`. -/
private def negated : ExprPattern := .unary .minus (.free "a")

/-- `(super)`. -/
private def parenSuper : Expr := .paren (.ofType .unknown) (.super (.ofType .unknown))

/-- What `a` stands for in `(super)`. -/
private def superBindings : Bindings where
  free := [("a", parenSuper)]
  repeated := []

/-- So are those of the example with `super`. -/
private theorem finds_super : bareContext.Finds superBindings := by
  have matched : (ExprPattern.free "a").unify bareContext.unit.symbols parenSuper .empty
      = some superBindings := rfl
  exact .expr matched

/-- `f(xs...) + f(xs...)` becomes `f(x) + f(x)` and does not match it, since a repeated variable
is bound only once.  `a + -a` becomes `(x) + -(x)` and does not match it either: the operand is
matched without its parentheses, and `(x)` and `x` look different.  Nor does `-a` match the
`-(super)` that it becomes, since no variable stands for `super`. -/
theorem not_unify_of_expand :
    (bareContext.Finds callBindings ∧
      (listedTwice.isRematchable = true ∧
        listedTwice.uses = [.plain "f", .rest "xs", .plain "f", .rest "xs"] ∧
        ∃ e, (listedTwice.expand (bareContext.expansion callBindings .direct)).run .empty
            = (.ok e, .empty) ∧
          listedTwice.unify bareContext.unit.symbols e .empty = none) ∧
      besideOperand.isRematchable = true ∧
        besideOperand.uses = [.plain "a", .operand "a"] ∧
        ∃ e, (besideOperand.expand (bareContext.expansion callBindings .direct)).run .empty
            = (.ok e, .empty) ∧
          besideOperand.unify bareContext.unit.symbols e .empty = none) ∧
    bareContext.Finds superBindings ∧
      negated.isRematchable = true ∧
        ∃ e, (negated.expand (bareContext.expansion superBindings .direct)).run .empty
            = (.ok e, .empty) ∧
          negated.unify bareContext.unit.symbols e .empty = none :=
  ⟨⟨finds_call, ⟨rfl, rfl, _, rfl, rfl⟩, rfl, rfl, _, rfl, rfl⟩,
    finds_super, rfl, _, rfl, rfl⟩

end JavaRefactor
