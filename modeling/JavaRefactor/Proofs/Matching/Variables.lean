import JavaRefactor.Proofs.Matching.Derivation
import Mathlib.Data.List.Basic
import Mathlib.Data.List.Nodup

/-!
# Which variables a match binds

`ExprPattern.vars` and `StmtPattern.vars` list the variables that a pattern binds,
each with its family: a repeated variable at the end of a list is bound to a list, and
elsewhere it is bound like a free variable.

`Bindings.Binds vars choice a b` compares the bindings before and after a match of a pattern
with these variables.  What was bound keeps its value, what is new is one of the variables,
and without a choice between alternatives all of them are bound in the end.  Binding one
variable is of this kind (`matchFree_binds`, `matchType_binds`, `matchRepeated_binds`,
`insertLocal_binds`) and one step after the other too (`Binds.append`), so every match is
(`Matches.binds`, `unify_binds`).
-/

namespace JavaRefactor

/-! ### The variables of a pattern -/

namespace ExprPattern

mutual

/-- The variables that matching a pattern binds, in the order in which they are met. -/
def vars : ExprPattern → List BindingKey
  | .literal _ | .localVar _ | .classRef _ | .staticRef .. | .primitiveType _ => []
  | .free name | .repeated name => [.free name]
  | .typeVar name => [.type name]
  | .binary _ p q | .assign p q | .compoundAssign _ p q | .cast p q | .instanceOf p q
  | .index p q => vars p ++ vars q
  | .unary _ p | .paren p | .arrayType p | .select p _ _ | .ofForm p _ => vars p
  | .conditional p q r => vars p ++ (vars q ++ vars r)
  | .call p ps | .newObject p ps | .typeApply p ps => vars p ++ varsOfList ps
  | .newArray element dims init =>
    varsOfOption element ++ (varsOfList dims ++ varsOfInit init)
  | .anyOf alternatives => varsOfAny alternatives

/-- The variables of a list of patterns, where a repeated one at the end takes a list. -/
def varsOfList : List ExprPattern → List BindingKey
  | [] => []
  | [.repeated name] => [.repeated name]
  | p :: ps => vars p ++ varsOfList ps

/-- The variables of an optional pattern. -/
def varsOfOption : Option ExprPattern → List BindingKey
  | none => []
  | some p => vars p

/-- The variables of an optional list of patterns. -/
def varsOfInit : Option (List ExprPattern) → List BindingKey
  | none => []
  | some ps => varsOfList ps

/-- The variables of some alternatives. -/
def varsOfAny : List ExprPattern → List BindingKey
  | [] => []
  | p :: ps => vars p ++ varsOfAny ps

end

mutual

/-- Whether a pattern offers a choice between alternatives somewhere. -/
def hasChoice : ExprPattern → Bool
  | .literal _ | .free _ | .localVar _ | .typeVar _ | .classRef _ | .staticRef ..
  | .primitiveType _ | .repeated _ => false
  | .binary _ p q | .assign p q | .compoundAssign _ p q | .cast p q | .instanceOf p q
  | .index p q => hasChoice p || hasChoice q
  | .unary _ p | .paren p | .arrayType p | .select p _ _ | .ofForm p _ => hasChoice p
  | .conditional p q r => hasChoice p || (hasChoice q || hasChoice r)
  | .call p ps | .newObject p ps | .typeApply p ps => hasChoice p || hasChoiceInList ps
  | .newArray element dims init =>
    hasChoiceInOption element || (hasChoiceInList dims || hasChoiceInInit init)
  | .anyOf _ => true

/-- Whether some of a list of patterns offers a choice. -/
def hasChoiceInList : List ExprPattern → Bool
  | [] => false
  | p :: ps => hasChoice p || hasChoiceInList ps

/-- Whether an optional pattern offers a choice. -/
def hasChoiceInOption : Option ExprPattern → Bool
  | none => false
  | some p => hasChoice p

/-- Whether an optional list of patterns offers a choice. -/
def hasChoiceInInit : Option (List ExprPattern) → Bool
  | none => false
  | some ps => hasChoiceInList ps

end

end ExprPattern

/-- The variables of a pattern of a declaration; the declared variable is bound last. -/
def DeclPattern.vars (p : DeclPattern) : List BindingKey :=
  p.type.vars ++ (ExprPattern.varsOfOption p.init ++ [.localVar p.name])

/-- Whether a pattern of a declaration offers a choice. -/
def DeclPattern.hasChoice (p : DeclPattern) : Bool :=
  p.type.hasChoice || ExprPattern.hasChoiceInOption p.init

namespace StmtPattern

mutual

/-- The variables that matching a pattern binds, in the order in which they are met. -/
def vars : StmtPattern → List BindingKey
  | .block stmts => varsOfEach stmts
  | .ifElse cond yes no => cond.vars ++ (vars yes ++ varsOfOption no)
  | .whileLoop cond body => cond.vars ++ vars body
  | .doLoop body cond => vars body ++ cond.vars
  | .forLoop init cond update body =>
    varsOfEach init ++ (ExprPattern.varsOfOption cond
      ++ (ExprPattern.varsOfList update ++ vars body))
  | .forEach var iterable body => var.vars ++ (iterable.vars ++ vars body)
  | .ret value => ExprPattern.varsOfOption value
  | .raise value | .expr value => value.vars
  | .synchronized lock body => lock.vars ++ vars body
  | .empty => []
  | .declare decl => decl.vars

/-- The variables of several patterns. -/
def varsOfEach : List StmtPattern → List BindingKey
  | [] => []
  | p :: ps => vars p ++ varsOfEach ps

/-- The variables of an optional pattern. -/
def varsOfOption : Option StmtPattern → List BindingKey
  | none => []
  | some p => vars p

end

mutual

/-- Whether a pattern offers a choice between alternatives somewhere. -/
def hasChoice : StmtPattern → Bool
  | .block stmts => hasChoiceInEach stmts
  | .ifElse cond yes no => cond.hasChoice || (hasChoice yes || hasChoiceInOption no)
  | .whileLoop cond body => cond.hasChoice || hasChoice body
  | .doLoop body cond => hasChoice body || cond.hasChoice
  | .forLoop init cond update body =>
    hasChoiceInEach init || (ExprPattern.hasChoiceInOption cond
      || (ExprPattern.hasChoiceInList update || hasChoice body))
  | .forEach var iterable body => var.hasChoice || (iterable.hasChoice || hasChoice body)
  | .ret value => ExprPattern.hasChoiceInOption value
  | .raise value | .expr value => value.hasChoice
  | .synchronized lock body => lock.hasChoice || hasChoice body
  | .empty => false
  | .declare decl => decl.hasChoice

/-- Whether some of several patterns offers a choice. -/
def hasChoiceInEach : List StmtPattern → Bool
  | [] => false
  | p :: ps => hasChoice p || hasChoiceInEach ps

/-- Whether an optional pattern offers a choice. -/
def hasChoiceInOption : Option StmtPattern → Bool
  | none => false
  | some p => hasChoice p

end

end StmtPattern

namespace MatchGoal

/-- The variables of the pattern of a goal. -/
def vars : MatchGoal → List BindingKey
  | expr p _ | receiver p _ => p.vars
  | list ps _ => ExprPattern.varsOfList ps
  | option p _ => ExprPattern.varsOfOption p
  | init ps _ => ExprPattern.varsOfInit ps
  | decl p _ => p.vars
  | stmt p _ => p.vars
  | stmts ps _ => StmtPattern.varsOfEach ps
  | stmtOption p _ => StmtPattern.varsOfOption p

/-- Whether the pattern of a goal offers a choice. -/
def hasChoice : MatchGoal → Bool
  | expr p _ | receiver p _ => p.hasChoice
  | list ps _ => ExprPattern.hasChoiceInList ps
  | option p _ => ExprPattern.hasChoiceInOption p
  | init ps _ => ExprPattern.hasChoiceInInit ps
  | decl p _ => p.hasChoice
  | stmt p _ => p.hasChoice
  | stmts ps _ => StmtPattern.hasChoiceInEach ps
  | stmtOption p _ => StmtPattern.hasChoiceInOption p

end MatchGoal

/-! ### The keys of a store -/

namespace Assignments

variable {α : Type} {entries extended : Assignments α} {name : String} {value : α}

/-- The keys of some entries are those under which something is found. -/
theorem mem_map_fst_iff :
    name ∈ entries.map Prod.fst ↔ ∃ value, entries.lookup name = some value := by
  rw [← Option.isSome_iff_exists, List.lookup_isSome_iff]
  simp

/-- The names that are bound after an insertion. -/
theorem map_fst_insert? (h : entries.insert? name value = some extended) :
    name ∉ entries.map Prod.fst ∧
      extended.map Prod.fst = entries.map Prod.fst ++ [name] := by
  obtain ⟨free, rfl⟩ := eq_append_of_insert? h
  refine ⟨?_, List.map_append⟩
  intro bound
  obtain ⟨v, hv⟩ := mem_map_fst_iff.mp bound
  rw [free] at hv
  exact absurd hv (by simp)

end Assignments

namespace Bindings

variable {a b c : Bindings} {name : String} {e : Expr}

/-- The keys of a store are the names of the four families, each name with its family. -/
theorem keys_eq (b : Bindings) :
    b.keys = (b.free.map Prod.fst).map .free ++ (b.locals.map Prod.fst).map .localVar
      ++ (b.types.map Prod.fst).map .type ++ (b.repeated.map Prod.fst).map .repeated := by
  simp [keys, Function.comp_def]

/-- A store has one more key than another one. -/
structure Adds (key : BindingKey) (a b : Bindings) : Prop where
  fresh : key ∉ a.keys
  perm : b.keys.Perm (key :: a.keys)

/-- A key between others can be moved to the front. -/
theorem Adds.of_middle {key : BindingKey} {front back : List BindingKey}
    (fresh : key ∉ a.keys) (old : a.keys = front ++ back)
    (new : b.keys = front ++ key :: back) : Adds key a b := by
  refine ⟨fresh, ?_⟩
  rw [old, new]
  exact List.perm_middle

/-- Binding a free variable adds its key. -/
theorem insertFree_adds (h : a.insertFree name e = .ok b) : Adds (.free name) a b := by
  obtain ⟨free, hfree, rfl⟩ := insertFree_eq_ok h
  obtain ⟨fresh, names⟩ := Assignments.map_fst_insert? hfree
  have split := ((keys_eq a).trans (List.append_assoc _ _ _)).trans (List.append_assoc _ _ _)
  refine .of_middle ?_ split ?_
  · simpa [keys_eq] using fresh
  · simp [keys_eq, names]

/-- Binding a local variable adds its key. -/
theorem insertLocal_adds {v : LocalBinding} (h : a.insertLocal name v = .ok b) :
    Adds (.localVar name) a b := by
  obtain ⟨locals, hlocals, rfl⟩ := insertLocal_eq_ok h
  obtain ⟨fresh, names⟩ := Assignments.map_fst_insert? hlocals
  refine .of_middle ?_ ((keys_eq a).trans (List.append_assoc _ _ _)) ?_
  · simpa [keys_eq] using fresh
  · simp [keys_eq, names]

/-- Binding a type parameter adds its key. -/
theorem insertType_adds {t : TypeBinding} (h : a.insertType name t = .ok b) :
    Adds (.type name) a b := by
  obtain ⟨types, htypes, rfl⟩ := insertType_eq_ok h
  obtain ⟨fresh, names⟩ := Assignments.map_fst_insert? htypes
  refine .of_middle ?_ (keys_eq a) ?_
  · simpa [keys_eq] using fresh
  · simp [keys_eq, names]

/-- Binding a variable for several expressions adds its key. -/
theorem insertRepeated_adds {es : List Expr} (h : a.insertRepeated name es = .ok b) :
    Adds (.repeated name) a b := by
  obtain ⟨repeated, hrepeated, rfl⟩ := insertRepeated_eq_ok h
  obtain ⟨fresh, names⟩ := Assignments.map_fst_insert? hrepeated
  refine .of_middle ?_ (List.append_nil _).symm ?_
  · simpa [keys_eq] using fresh
  · simp [keys_eq, names]

/-! ### What a match binds -/

/-- How the bindings before and after a match compare, where the pattern binds some variables
and may offer a choice. -/
structure Binds (vars : List BindingKey) (choice : Bool) (a b : Bindings) : Prop where
  /-- What was bound has the value that it had. -/
  keeps : b.Extends a
  /-- What is newly bound is a variable of the pattern. -/
  within : ∀ key ∈ b.keys, key ∈ a.keys ∨ key ∈ vars
  /-- Without a choice every variable of the pattern is bound. -/
  exactly : choice = false → ∀ key, key ∈ b.keys ↔ key ∈ a.keys ∨ key ∈ vars
  /-- No key is bound twice. -/
  distinct : a.keys.Nodup → b.keys.Nodup

namespace Binds

variable {vars vars' : List BindingKey} {choice choice' : Bool} {key : BindingKey}

/-- What keeps all bindings and adds exactly the keys of the variables binds these. -/
theorem of_iff (keeps : b.Extends a) (exactly : ∀ key, key ∈ b.keys ↔ key ∈ a.keys ∨ key ∈ vars)
    (distinct : a.keys.Nodup → b.keys.Nodup) : Binds vars choice a b :=
  ⟨keeps, fun key => (exactly key).mp, fun _ => exactly, distinct⟩

/-- Without variables, nothing is bound. -/
theorem nothing (a : Bindings) : Binds [] false a a :=
  of_iff (.refl a) (fun _ => by simp) fun distinct => distinct

/-- Binding a variable that is not bound. -/
theorem of_adds (keeps : b.Extends a) (h : Adds key a b) : Binds [key] false a b := by
  refine of_iff keeps ?_ ?_
  · intro k
    rw [h.perm.mem_iff, List.mem_cons, List.mem_singleton, or_comm]
  · intro distinct
    exact h.perm.nodup_iff.mpr (List.nodup_cons.mpr ⟨h.fresh, distinct⟩)

/-- A variable that is bound already. -/
theorem of_mem (h : key ∈ a.keys) : Binds [key] false a a := by
  refine of_iff (.refl a) ?_ fun distinct => distinct
  intro k
  rw [List.mem_singleton, or_iff_left_of_imp]
  rintro rfl
  exact h

/-- Two matches, one after the other. -/
theorem append (h : Binds vars choice a b) (h' : Binds vars' choice' b c) :
    Binds (vars ++ vars') (choice || choice') a c := by
  refine ⟨h'.keeps.trans h.keeps, ?_, ?_, fun distinct => h'.distinct (h.distinct distinct)⟩
  · intro key hkey
    rw [List.mem_append, ← or_assoc]
    exact (h'.within key hkey).imp_left (h.within key)
  · intro decided key
    obtain ⟨first, second⟩ := Bool.or_eq_false_iff.mp decided
    rw [h'.exactly second, h.exactly first, List.mem_append, or_assoc]

/-- The match of one of some alternatives. -/
theorem choose (h : Binds vars choice a b) (sub : vars ⊆ vars') : Binds vars' true a b := by
  refine ⟨h.keeps, ?_, fun decided => absurd decided (by simp), h.distinct⟩
  intro key hkey
  exact (h.within key hkey).imp_right fun new => sub new

end Binds

/-- A free variable that stands for something is a key. -/
theorem free_mem_keys (h : a.free.lookup name = some e) : .free name ∈ a.keys := by
  have bound := Assignments.mem_map_fst_iff.mpr ⟨e, h⟩
  rw [keys_eq]
  simpa using bound

/-- A type parameter that stands for something is a key. -/
theorem type_mem_keys {t : TypeBinding} (h : a.types.lookup name = some t) :
    .type name ∈ a.keys := by
  have bound := Assignments.mem_map_fst_iff.mpr ⟨t, h⟩
  rw [keys_eq]
  simpa using bound

/-- Matching a variable for one expression binds it. -/
theorem matchFree_binds (h : a.matchFree name e = some b) : Binds [.free name] false a b := by
  have keeps := matchFree_extends h
  obtain ⟨-, ⟨-, inserted⟩ | ⟨bound, hbound, -, rfl⟩⟩ := matchFree_eq_some h
  · exact .of_adds keeps (insertFree_adds inserted)
  · exact .of_mem (free_mem_keys hbound)

/-- Matching a type parameter binds it. -/
theorem matchType_binds (h : a.matchType name e = some b) : Binds [.type name] false a b := by
  obtain ⟨-, inserted⟩ | ⟨_, hbound, -, rfl⟩ := matchType_eq_some h
  · exact .of_adds (matchType_extends h) (insertType_adds inserted)
  · exact .of_mem (type_mem_keys hbound)

/-- What a repeated variable takes from each target is not kept: only the list is bound. -/
theorem matchRepeated_binds {es : List Expr} (h : a.matchRepeated name es = some b) :
    Binds [.repeated name] false a b := by
  have keeps := matchRepeated_extends h
  obtain ⟨items, -, inserted⟩ := matchRepeated_eq_some h
  exact .of_adds keeps (insertRepeated_adds inserted)

end Bindings

open Bindings

/-- The variables of an alternative are variables of all of them together. -/
theorem ExprPattern.vars_subset_varsOfAny {p : ExprPattern} {ps : List ExprPattern}
    (h : p ∈ ps) : p.vars ⊆ varsOfAny ps := by
  induction ps with
  | nil => exact absurd h List.not_mem_nil
  | cons q ps ih =>
    intro key hkey
    rw [varsOfAny]
    rcases List.mem_cons.mp h with rfl | h
    · exact List.mem_append_left _ hkey
    · exact List.mem_append_right _ (ih h hkey)

/-- A pattern in front of others is matched on its own unless it is repeated. -/
theorem ExprPattern.varsOfList_cons {p : ExprPattern} {ps : List ExprPattern}
    (single : ∀ name, p ≠ .repeated name) : varsOfList (p :: ps) = p.vars ++ varsOfList ps := by
  cases p with
  | repeated name => exact absurd rfl (single name)
  | _ => cases ps <;> simp [varsOfList]

variable {symbols : SymbolTable}

/-- A match binds the variables of its pattern. -/
theorem Matches.binds {g : MatchGoal} {a b : Bindings} (h : Matches symbols g a b) :
    Binds g.vars g.hasChoice a b := by
  induction h with
  | free h | repeatedOne h | receiverFree h => exact matchFree_binds h
  | localVar h =>
    obtain ⟨rfl, -⟩ := matchLocal_eq_some h
    exact .nothing _
  | typeVar h => exact matchType_binds h
  | repeatedRest h => exact matchRepeated_binds h
  | classRef | staticRef | literal | primitiveType | nil | absent | noInit | empty | noStmts
  | noStmt => exact .nothing _
  | unary _ ih | select _ _ _ ih | bareMember _ _ _ _ _ ih | parenBoth _ ih | parenLeft _ ih
  | arrayType _ ih | ofForm _ _ ih | receiverParen _ ih | present _ ih | someInit _ ih
  | block _ ih | ret _ ih | raise _ ih | exprStmt _ ih | declare _ ih | someStmt _ ih => exact ih
  | anyOf hp _ ih | receiverAnyOf hp _ ih => exact ih.choose (ExprPattern.vars_subset_varsOfAny hp)
  | binary _ _ ih ih' | assign _ _ ih ih' | compoundAssign _ _ ih ih' | cast _ _ ih ih'
  | instanceOf _ _ ih ih' | call _ _ ih ih' | index _ _ ih ih' | newObject _ _ ih ih'
  | typeApply _ _ ih ih' | whileLoop _ _ ih ih' | doLoop _ _ ih ih' | synchronized _ _ ih ih'
  | consStmt _ _ ih ih' => exact ih.append ih'
  | cons single _ _ ih ih' =>
    have both := ih.append ih'
    rw [MatchGoal.vars, ExprPattern.varsOfList_cons single]
    exact both
  | conditional _ _ _ ih ih' ih'' | newArray _ _ _ ih ih' ih'' | ifElse _ _ _ ih ih' ih''
  | forEach _ _ _ ih ih' ih'' => exact ih.append (ih'.append ih'')
  | forLoop _ _ _ _ ih₁ ih₂ ih₃ ih₄ => exact ih₁.append (ih₂.append (ih₃.append ih₄))
  | decl _ _ _ _ bound ih ih' =>
    have declared := Binds.of_adds (insertLocal_extends bound) (insertLocal_adds bound)
    have whole := ih.append (ih'.append declared)
    rw [Bool.or_false] at whole
    exact whole

/-- Matching an expression or a statement keeps the bindings that it starts from and binds
variables of the pattern only; if the pattern offers no choice, the keys in the end are exactly
the old ones and the variables of the pattern, so that a repeated variable at the end of a list
leaves no free variable of its name behind. -/
theorem unify_binds (symbols : SymbolTable) :
    (∀ (p : ExprPattern) (e : Expr) (a b : Bindings),
      p.unify symbols e a = some b → Binds p.vars p.hasChoice a b) ∧
    ∀ (p : StmtPattern) (s : Stmt) (a b : Bindings),
      p.unify symbols s a = some b → Binds p.vars p.hasChoice a b := by
  constructor
  · intro p e a b h
    exact (p.matches_of_unify h).binds
  · intro p s a b h
    exact (p.matches_of_unify h).binds

/-! ### A repeated variable and a declared one -/

private def callee : Expr := .ident (.ofType .unknown) "f" none

private def argument (name : String) : Expr := .ident (.ofType .unknown) name none

/-- `f(x, y, z)`. -/
private def threeArguments : Expr :=
  .call (.ofType .unknown) callee [argument "x", argument "y", argument "z"]

/-- A call with a first argument and any number of others. -/
private def firstAndRest : ExprPattern := .call (.free "f") [.free "first", .repeated "rest"]

/-- `int n = x;`. -/
private def declared : Stmt :=
  .declare .synthetic
    ⟨"n", .primitiveType (.ofType (.primitive .int)) .int, some (argument "x"), some 0, false⟩

private def declaration : StmtPattern :=
  .declare ⟨"tmp", .primitiveType .int, some (.free "value")⟩

/-- The call binds the two free variables and the list, and the declaration its initializer
and the local. -/
theorem unify_binds_call_declaration :
    (∃ b, firstAndRest.unify .empty threeArguments .empty = some b ∧
      Binds [.free "f", .free "first", .repeated "rest"] false .empty b) ∧
    ∃ b, declaration.unify .empty declared .empty = some b ∧
      Binds [.free "value", .localVar "tmp"] false .empty b :=
  ⟨⟨_, rfl, (unify_binds .empty).1 firstAndRest threeArguments .empty _ rfl⟩,
    ⟨_, rfl, (unify_binds .empty).2 declaration declared .empty _ rfl⟩⟩

end JavaRefactor
