import JavaRefactor.Proofs.Expansion.Ensures
import JavaRefactor.Proofs.Reference.Run
import JavaRefactor.Expansion.Stmt

/-!
# The references of an expansion

An expansion refers to classes and to static members one after the other.  Which references these
are, and in which order, is known before it runs: it follows from the pattern and from the types
that the bindings hold (`ExprPattern.references`, `StmtPattern.references`).  An expansion that
succeeds issues all of them, and one that fails the first of them, so the pending imports that it
leaves are those after a run of these references.  Its result depends on the imports only by what
the references are written as (`ExprPattern.expand_issues`, `StmtPattern.expandEach_issues`).
-/

namespace JavaRefactor

/-! ### Issuing references -/

namespace ExpansionContext

/-- What some references are written as. -/
def written (c : ExpansionContext) (refs : List Reference) (p : PendingImports) : List Expr :=
  ((c.policy.referAll c.unit refs).run p).1

/-- The pending imports after some references. -/
def pendingAfter (c : ExpansionContext) (refs : List Reference) (p : PendingImports) :
    PendingImports :=
  ((c.policy.referAll c.unit refs).run p).2

variable (c : ExpansionContext) (refs refs' : List Reference)

/-- Each reference is written as one expression. -/
theorem length_written (p : PendingImports) : (c.written refs p).length = refs.length := by
  induction refs generalizing p with
  | nil => rfl
  | cons r refs ih =>
    have others := ih ((c.policy.refer c.unit r).run p).2
    rw [written] at others
    rw [written, ImportPolicy.referAll_cons, List.length_cons, others, List.length_cons]

/-- Of references side by side, the second ones are written with the imports of the first ones. -/
theorem written_append (p : PendingImports) :
    c.written (refs ++ refs') p = c.written refs p ++ c.written refs' (c.pendingAfter refs p) := by
  unfold written pendingAfter ImportPolicy.referAll
  rw [List.mapM_append]
  rfl

/-- References side by side need the imports of both. -/
theorem pendingAfter_append (p : PendingImports) :
    c.pendingAfter (refs ++ refs') p = c.pendingAfter refs' (c.pendingAfter refs p) := by
  unfold pendingAfter ImportPolicy.referAll
  rw [List.mapM_append]
  rfl

end ExpansionContext

/-- A computation writes some references one after the other, and its result is made of what they
are written as. -/
def Importing.Issues {α : Type} (x : Importing α) (c : ExpansionContext)
    (refs : List Reference) : Prop :=
  ∃ give : List Expr → α, ∀ p, x.run p = (give (c.written refs p), c.pendingAfter refs p)

/-- An expansion writes some references one after the other, all of them if it succeeds, and the
first ones if it fails; its result is made of what they are written as. -/
def Expanding.Issues {α : Type} (x : Expanding α) (c : ExpansionContext)
    (refs : List Reference) : Prop :=
  ∃ give : List Expr → Except ExpansionError α, ∀ p, ∃ issued, issued <+: refs ∧
    x.run p = (give (c.written issued p), c.pendingAfter issued p) ∧
    ∀ a, (x.run p).1 = .ok a → issued = refs

section Issues

variable {α β : Type} {c : ExpansionContext} {refs refs' : List Reference}

namespace Importing.Issues

/-- A result that is given issues nothing. -/
theorem pure (a : α) : Issues (Pure.pure a) c [] := ⟨fun _ => a, fun _ => rfl⟩

/-- Two computations in turn issue what both issue, in their order. -/
theorem bind {x : Importing α} {f : α → Importing β} (hx : Issues x c refs)
    (hf : ∀ a, Issues (f a) c refs') : Issues (x >>= f) c (refs ++ refs') := by
  obtain ⟨give, hx⟩ := hx
  choose give' hf using hf
  refine ⟨fun es => give' (give (es.take refs.length)) (es.drop refs.length), ?_⟩
  intro p
  have length := c.length_written refs p
  simp only [ImportPolicy.run_bind, hx, hf, c.written_append, c.pendingAfter_append,
    List.take_left' length, List.drop_left' length]

/-- What is made of a result issues nothing more. -/
theorem map {x : Importing α} (hx : Issues x c refs) (f : α → β) :
    Issues (x >>= fun a => Pure.pure (f a)) c refs := by
  have both := hx.bind fun a => pure (f a)
  rwa [List.append_nil] at both

/-- A computation issues the same references within an expansion. -/
theorem lift {x : Importing α} (hx : Issues x c refs) : Expanding.Issues (liftM x) c refs := by
  obtain ⟨give, hx⟩ := hx
  refine ⟨fun es => .ok (give es), ?_⟩
  intro p
  refine ⟨refs, List.prefix_rfl, ?_, fun _ _ => rfl⟩
  have run : (liftM x : Expanding α).run p = (.ok (x.run p).1, (x.run p).2) := rfl
  rw [run, hx]

end Importing.Issues

namespace Expanding.Issues

/-- A result that is given issues nothing. -/
theorem pure (a : α) : Issues (Pure.pure a) c [] := by
  refine ⟨fun _ => .ok a, ?_⟩
  intro p
  exact ⟨[], List.prefix_rfl, rfl, fun _ _ => rfl⟩

/-- An expansion that fails at once has issued the first references of any list, namely none. -/
theorem throw (e : ExpansionError) : Issues (MonadExcept.throw e : Expanding α) c refs := by
  refine ⟨fun _ => .error e, ?_⟩
  intro p
  refine ⟨[], List.nil_prefix, rfl, ?_⟩
  intro a ok
  have failed : (Except.error e : Except ExpansionError α) = .ok a := ok
  exact absurd failed (by simp)

/-- Two expansions in turn issue what both issue, in their order. -/
theorem bind {x : Expanding α} {f : α → Expanding β} (hx : Issues x c refs)
    (hf : ∀ a, Issues (f a) c refs') : Issues (x >>= f) c (refs ++ refs') := by
  obtain ⟨give, hx⟩ := hx
  choose give' hf using hf
  refine ⟨fun es => match give (es.take refs.length) with
    | .ok a => give' a (es.drop refs.length)
    | .error e => .error e, ?_⟩
  intro p
  obtain ⟨issued, front, run, all⟩ := hx p
  rw [run] at all
  rw [run_bind, run]
  cases first : give (c.written issued p) with
  | ok a =>
    obtain rfl := all a first
    have length := c.length_written issued p
    obtain ⟨issued', front', run', all'⟩ := hf a (c.pendingAfter issued p)
    refine ⟨issued ++ issued', (List.prefix_append_right_inj issued).2 front', ?_, ?_⟩
    · simp only [run', c.written_append, c.pendingAfter_append, List.take_left' length,
        List.drop_left' length, first]
    · intro b ok
      rw [all' b ok]
  | error e =>
    have short : (c.written issued p).length ≤ refs.length := by
      rw [c.length_written]
      exact front.length_le
    refine ⟨issued, front.trans (List.prefix_append refs refs'), ?_, ?_⟩
    · simp only [List.take_of_length_le short, first]
    · intro b ok
      exact absurd ok (by simp)

/-- What is made of a result issues nothing more. -/
theorem map {x : Expanding α} (hx : Issues x c refs) (f : α → β) :
    Issues (x >>= fun a => Pure.pure (f a)) c refs := by
  have both := hx.bind fun a => pure (f a)
  rwa [List.append_nil] at both

end Expanding.Issues

end Issues

/-! ### References of types -/

mutual

/-- The references in the syntax of a type. -/
def JavaType.references : JavaType → List Reference
  | .declared name args => .toClass name :: JavaType.referencesEach args
  | .array element => references element
  | .wildcard _ (some bound) => references bound
  | .primitive _ | .wildcard _ none | .var .. | .method .. | .generic .. | .unknown => []

/-- The references in the syntax of several types. -/
def JavaType.referencesEach : List JavaType → List Reference
  | [] => []
  | type :: types => references type ++ JavaType.referencesEach types

end

namespace ExpansionContext

variable (c : ExpansionContext)

/-- The references of a type variable that is used as an expression. -/
def typeVarReferences (name : String) : List Reference :=
  match c.bindings.types.lookup name with
  | some ⟨type, none⟩ => type.references
  | some ⟨_, some _⟩ | none => []

/-- The reference to a static member, if the classes of its type are known. -/
def memberReferences (owner member : String) (type : TypePattern) : List Reference :=
  match type.expand c.table c.bindings with
  | .ok found => [.toMember owner member found]
  | .error _ => []

end ExpansionContext

/-! ### References of patterns -/

namespace ExprPattern

variable (c : ExpansionContext)

mutual

/-- The references that an expansion issues, in their order. -/
def references : ExprPattern → List Reference
  | .typeVar name => c.typeVarReferences name
  | .classRef name => [.toClass name]
  | .staticRef owner member type => c.memberReferences owner member type
  | .literal _ | .free _ | .localVar _ | .primitiveType _ | .anyOf _ | .repeated _ => []
  | .binary _ p q | .assign p q | .compoundAssign _ p q | .cast p q | .instanceOf p q
  | .index p q => references p ++ references q
  | .unary _ p | .paren p | .arrayType p | .select p _ _ | .ofForm p _ => references p
  | .conditional p q r => references p ++ (references q ++ references r)
  | .call p ps | .newObject p ps | .typeApply p ps => references p ++ referencesOfEach ps
  | .newArray element dims init =>
    referencesOfOption element ++ (referencesOfEach dims ++ referencesOfInit init)

/-- The references of several patterns. -/
def referencesOfEach : List ExprPattern → List Reference
  | [] => []
  | p :: ps => references p ++ referencesOfEach ps

/-- The references of an optional pattern. -/
def referencesOfOption : Option ExprPattern → List Reference
  | none => []
  | some p => references p

/-- The references of optional patterns. -/
def referencesOfInit : Option (List ExprPattern) → List Reference
  | none => []
  | some ps => referencesOfEach ps

end

end ExprPattern

/-- The references of a declaration. -/
def DeclPattern.references (c : ExpansionContext) (p : DeclPattern) : List Reference :=
  p.type.references c ++ ExprPattern.referencesOfOption c p.init

namespace StmtPattern

variable (c : ExpansionContext)

mutual

/-- The references that an expansion of a statement issues, in their order. -/
def references : StmtPattern → List Reference
  | .block stmts => referencesOfEach stmts
  | .ifElse cond yes no => cond.references c ++ (references yes ++ referencesOfOption no)
  | .whileLoop cond body | .synchronized cond body => cond.references c ++ references body
  | .doLoop body cond => references body ++ cond.references c
  | .forLoop init cond update body =>
    referencesOfEach init ++ (ExprPattern.referencesOfOption c cond
      ++ (ExprPattern.referencesOfEach c update ++ references body))
  | .forEach var iterable body =>
    var.references c ++ (iterable.references c ++ references body)
  | .ret value => ExprPattern.referencesOfOption c value
  | .raise value | .expr value => value.references c
  | .empty => []
  | .declare decl => decl.references c

/-- The references of several statements. -/
def referencesOfEach : List StmtPattern → List Reference
  | [] => []
  | p :: ps => references p ++ referencesOfEach ps

/-- The references of an optional statement. -/
def referencesOfOption : Option StmtPattern → List Reference
  | none => []
  | some p => references p

end

end StmtPattern

/-! ### Expansions -/

namespace ExpansionContext

variable (c : ExpansionContext)

/-- Writing a reference issues it alone. -/
theorem refer_issues (r : Reference) : (c.policy.refer c.unit r).Issues c [r] := by
  refine ⟨fun es => es.headD (.this (.ofType .unknown)), ?_⟩
  intro p
  rw [written, pendingAfter, ImportPolicy.referAll_cons]
  rfl

/-- The reference to a class is all that it issues. -/
theorem classReference_issues (name : String) : (c.classReference name).Issues c [.toClass name] :=
  c.refer_issues (.toClass name)

mutual

/-- The syntax of a type issues the references to the classes in it. -/
theorem typeSyntax_issues : (type : JavaType) → (c.typeSyntax type).Issues c type.references
  | .primitive _ | .wildcard _ none | .var .. | .method .. | .generic .. | .unknown => .pure _
  | .declared name [] => by
    rw [typeSyntax]
    exact c.classReference_issues name
  | .declared name (arg :: args) => by
    rw [typeSyntax]
    exact .bind (c.classReference_issues name) fun _ => .bind (typeSyntax_issues arg) fun _ =>
      (typeSyntaxEach_issues args).map _
  | .array element => by
    rw [typeSyntax]
    exact (typeSyntax_issues element).map _
  | .wildcard _ (some bound) => by
    rw [typeSyntax]
    exact (typeSyntax_issues bound).map _

theorem typeSyntaxEach_issues : (types : List JavaType) →
    (c.typeSyntaxEach types).Issues c (JavaType.referencesEach types)
  | [] => .pure _
  | type :: types => by
    rw [typeSyntaxEach]
    exact .bind (typeSyntax_issues type) fun _ => (typeSyntaxEach_issues types).map _

end

/-- A type variable that is used as an expression issues the references of the type that it stands
for. -/
theorem typeVarNamed_issues (name : String) :
    (c.typeVarNamed name).Issues c (c.typeVarReferences name) := by
  unfold typeVarNamed typeVarReferences
  rcases c.bindings.types.lookup name with none | ⟨type, none | witness⟩
  · exact .pure _
  · exact c.typeSyntax_issues type
  · exact .pure _

/-- A variable for one expression issues nothing, as it stands for code that is there. -/
theorem freeNamed_issues (name : String) : (c.freeNamed name).Issues c [] := by
  unfold freeNamed
  split
  · exact .pure _
  · exact .throw _

/-- Nor does a variable for several expressions. -/
theorem repeatedNamed_issues (name : String) : (c.repeatedNamed name).Issues c [] := by
  unfold repeatedNamed
  split
  · exact .pure _
  · exact .throw _

/-- Expanding a type issues nothing; only its syntax would. -/
theorem expandType_issues (p : TypePattern) : (c.expandType p).Issues c [] := by
  unfold expandType
  split
  · exact .pure _
  · exact .throw _

/-- A static member issues its reference if its type is known. -/
theorem memberNamed_issues (owner member : String) (type : TypePattern) :
    (c.expandType type >>= fun found => liftM (c.staticReference owner member found)).Issues c
      (c.memberReferences owner member type) := by
  unfold expandType memberReferences
  rcases type.expand c.table c.bindings with e | found
  · exact .throw (.unknownClass e)
  · exact (c.refer_issues (.toMember owner member found)).lift

end ExpansionContext

section Patterns

variable (c : ExpansionContext)

namespace ExprPattern

mutual

/-- An expansion issues the references of the pattern. -/
theorem expand_issues : (p : ExprPattern) → (p.expand c).Issues c (p.references c)
  | .literal _ | .localVar _ | .primitiveType _ => .pure _
  | .anyOf _ | .repeated _ => .throw _
  | .free name => by
    rw [expand]
    exact c.freeNamed_issues name
  | .typeVar name => by
    rw [expand]
    exact (c.typeVarNamed_issues name).lift
  | .classRef name => by
    rw [expand]
    exact (c.classReference_issues name).lift
  | .staticRef owner member type => by
    rw [expand]
    exact c.memberNamed_issues owner member type
  | .binary _ p q | .assign p q | .compoundAssign _ p q | .cast p q | .instanceOf p q
  | .index p q => by
    rw [expand]
    exact .bind (expand_issues p) fun _ => (expand_issues q).map _
  | .unary _ p | .paren p | .arrayType p => by
    rw [expand]
    exact (expand_issues p).map _
  | .select p name type => by
    rw [expand]
    have both := (expand_issues p).bind fun receiver =>
      (c.expandType_issues type).map fun found => receiver.selectFrom name found
    rwa [List.append_nil] at both
  | .ofForm p _ => by
    rw [expand]
    exact expand_issues p
  | .conditional p q r => by
    rw [expand]
    exact .bind (expand_issues p) fun _ => .bind (expand_issues q) fun _ => (expand_issues r).map _
  | .call p ps | .newObject p ps => by
    rw [expand]
    exact .bind (expand_issues p) fun _ => (expandList_issues ps).map _
  | .typeApply p ps => by
    rw [expand]
    exact .bind (expand_issues p) fun _ => (expandEach_issues ps).map _
  | .newArray element dims init => by
    rw [expand]
    exact .bind (expandOption_issues element) fun _ => .bind (expandList_issues dims) fun _ =>
      (expandInit_issues init).map _

/-- A list of patterns issues the references of each, in their order. -/
theorem expandList_issues : (ps : List ExprPattern) →
    (expandList c ps).Issues c (referencesOfEach c ps)
  | [] => .pure _
  | p :: ps => by
    unfold expandList
    split
    · rename_i heq
      exact absurd heq (by simp)
    · rename_i name rest heq
      obtain ⟨rfl, rfl⟩ := List.cons_eq_cons.mp heq
      exact .bind (c.repeatedNamed_issues name) fun _ => (expandList_issues ps).map _
    · rename_i p' rest heq
      obtain ⟨rfl, rfl⟩ := List.cons_eq_cons.mp heq
      exact .bind (expand_issues p) fun _ => (expandList_issues ps).map _

/-- Several patterns issue the references of each, in their order. -/
theorem expandEach_issues : (ps : List ExprPattern) →
    (expandEach c ps).Issues c (referencesOfEach c ps)
  | [] => .pure _
  | p :: ps => by
    rw [expandEach]
    exact .bind (expand_issues p) fun _ => (expandEach_issues ps).map _

/-- An optional pattern issues its references if it is there. -/
theorem expandOption_issues : (p : Option ExprPattern) →
    (expandOption c p).Issues c (referencesOfOption c p)
  | none => .pure _
  | some p => by
    rw [expandOption]
    exact (expand_issues p).map _

/-- Optional patterns issue their references if they are there. -/
theorem expandInit_issues : (ps : Option (List ExprPattern)) →
    (expandInit c ps).Issues c (referencesOfInit c ps)
  | none => .pure _
  | some ps => by
    rw [expandInit]
    exact (expandList_issues ps).map _

end

end ExprPattern

/-- A declaration issues the references of its type and then those of its initializer. -/
theorem DeclPattern.expand_issues (p : DeclPattern) : (p.expand c).Issues c (p.references c) :=
  .bind (p.type.expand_issues c) fun _ => (ExprPattern.expandOption_issues c p.init).map _

namespace StmtPattern

mutual

/-- An expansion of a statement issues the references of the pattern. -/
theorem expand_issues : (p : StmtPattern) → (p.expand c).Issues c (p.references c)
  | .block stmts => by
    rw [expand]
    exact (expandEach_issues stmts).map _
  | .ifElse cond yes no => by
    rw [expand]
    exact .bind (cond.expand_issues c) fun _ => .bind (expand_issues yes) fun _ =>
      (expandOption_issues no).map _
  | .whileLoop cond body | .synchronized cond body => by
    rw [expand]
    exact .bind (cond.expand_issues c) fun _ => (expand_issues body).map _
  | .doLoop body cond => by
    rw [expand]
    exact .bind (expand_issues body) fun _ => (cond.expand_issues c).map _
  | .forLoop init cond update body => by
    rw [expand]
    exact .bind (expandEach_issues init) fun _ =>
      .bind (ExprPattern.expandOption_issues c cond) fun _ =>
        .bind (ExprPattern.expandList_issues c update) fun _ => (expand_issues body).map _
  | .forEach var iterable body => by
    rw [expand]
    exact .bind (var.expand_issues c) fun _ => .bind (iterable.expand_issues c) fun _ =>
      (expand_issues body).map _
  | .ret value => by
    rw [expand]
    exact (ExprPattern.expandOption_issues c value).map _
  | .raise value | .expr value => by
    rw [expand]
    exact (value.expand_issues c).map _
  | .empty => .pure _
  | .declare decl => by
    rw [expand]
    exact (decl.expand_issues c).map _

/-- An expansion of statements issues their references one after the other. -/
theorem expandEach_issues : (ps : List StmtPattern) →
    (expandEach c ps).Issues c (referencesOfEach c ps)
  | [] => .pure _
  | p :: ps => by
    rw [expandEach]
    exact .bind (expand_issues p) fun _ => (expandEach_issues ps).map _

/-- An optional statement issues its references if it is there. -/
theorem expandOption_issues : (p : Option StmtPattern) →
    (expandOption c p).Issues c (referencesOfOption c p)
  | none => .pure _
  | some p => by
    rw [expandOption]
    exact (expand_issues p).map _

end

end StmtPattern

end Patterns

end JavaRefactor
