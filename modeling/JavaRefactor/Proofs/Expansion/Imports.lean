import JavaRefactor.Proofs.Expansion.References
import JavaRefactor.Template.Block

/-!
# Imports along an expansion

An expansion refers to classes and static members one after the other, and each reference may add
an import to the pending ones.  A property of the pending imports that every reference keeps is
kept by the whole expansion, whether it succeeds or fails (`ExprPattern.expand_keeps`,
`StmtPattern.expandEach_keeps`, `BlockTemplate.replaceEach_keeps`).  Which static members are
referred to is written in the pattern (`ExprPattern.staticMembers`); the classes may also come from
the types that the bindings hold.
-/

namespace JavaRefactor

/-! ### Keeping a property -/

/-- A computation keeps a property of the pending imports. -/
def Importing.Keeps {α : Type} (x : Importing α) (I : PendingImports → Prop) : Prop :=
  ∀ p, I p → I (x.run p).2

/-- An expansion keeps a property of the pending imports, also when it fails. -/
def Expanding.Keeps {α : Type} (x : Expanding α) (I : PendingImports → Prop) : Prop :=
  ∀ p, I p → I (x.run p).2

namespace Expanding.Keeps

variable {α β : Type} {I : PendingImports → Prop}

/-- A result that is given leaves the pending imports as they are. -/
theorem pure (a : α) : Keeps (Pure.pure a) I := fun _ h => h

/-- Two expansions in turn keep what both keep. -/
theorem bind {x : Expanding α} {f : α → Expanding β} (hx : Keeps x I) (hf : ∀ a, Keeps (f a) I) :
    Keeps (x >>= f) I := by
  intro p h
  have middle := hx p h
  rw [run_bind]
  split
  · rename_i a q first
    rw [first] at middle
    exact hf a q middle
  · rename_i e q first
    rw [first] at middle
    exact middle

end Expanding.Keeps

/-- What all references keep is kept by what issues them. -/
theorem Expanding.Issues.keeps {α : Type} {x : Expanding α} {c : ExpansionContext}
    {refs : List Reference} {I : PendingImports → Prop} (h : x.Issues c refs)
    (keeps : ∀ r ∈ refs, (c.policy.refer c.unit r).Keeps I) : x.Keeps I := by
  obtain ⟨give, h⟩ := h
  intro p start
  obtain ⟨issued, front, run, -⟩ := h p
  rw [run]
  exact (ImportPolicy.referAll_keeps (fun r hr => keeps r (front.subset hr)) start).1

/-! ### Static members -/

namespace ExprPattern

mutual

/-- The names of the static members that a pattern refers to when it is expanded. -/
def staticMembers : ExprPattern → List String
  | .staticRef _ member _ => [member]
  | .literal _ | .free _ | .localVar _ | .typeVar _ | .classRef _ | .primitiveType _ | .anyOf _
  | .repeated _ => []
  | .binary _ p q | .assign p q | .compoundAssign _ p q | .cast p q | .instanceOf p q
  | .index p q => staticMembers p ++ staticMembers q
  | .unary _ p | .paren p | .arrayType p | .select p _ _ | .ofForm p _ => staticMembers p
  | .conditional p q r => staticMembers p ++ (staticMembers q ++ staticMembers r)
  | .call p ps | .newObject p ps | .typeApply p ps => staticMembers p ++ staticMembersOfEach ps
  | .newArray element dims init =>
    staticMembersOfOption element ++ (staticMembersOfEach dims ++ staticMembersOfInit init)

/-- The names of the static members that several patterns refer to. -/
def staticMembersOfEach : List ExprPattern → List String
  | [] => []
  | p :: ps => staticMembers p ++ staticMembersOfEach ps

/-- The names of the static members that an optional pattern refers to. -/
def staticMembersOfOption : Option ExprPattern → List String
  | none => []
  | some p => staticMembers p

/-- The names of the static members that optional patterns refer to. -/
def staticMembersOfInit : Option (List ExprPattern) → List String
  | none => []
  | some ps => staticMembersOfEach ps

end

end ExprPattern

/-- The names of the static members that a pattern of a declaration refers to. -/
def DeclPattern.staticMembers (p : DeclPattern) : List String :=
  p.type.staticMembers ++ ExprPattern.staticMembersOfOption p.init

namespace StmtPattern

mutual

/-- The names of the static members that a pattern refers to when it is expanded. -/
def staticMembers : StmtPattern → List String
  | .block stmts => staticMembersOfEach stmts
  | .ifElse cond yes no => cond.staticMembers ++ (staticMembers yes ++ staticMembersOfOption no)
  | .whileLoop cond body | .doLoop body cond | .synchronized cond body =>
    cond.staticMembers ++ staticMembers body
  | .forLoop init cond update body =>
    staticMembersOfEach init ++ (ExprPattern.staticMembersOfOption cond
      ++ (ExprPattern.staticMembersOfEach update ++ staticMembers body))
  | .forEach var iterable body =>
    var.staticMembers ++ (iterable.staticMembers ++ staticMembers body)
  | .ret value => ExprPattern.staticMembersOfOption value
  | .raise value | .expr value => value.staticMembers
  | .empty => []
  | .declare decl => decl.staticMembers

/-- The names of the static members that several patterns refer to. -/
def staticMembersOfEach : List StmtPattern → List String
  | [] => []
  | p :: ps => staticMembers p ++ staticMembersOfEach ps

/-- The names of the static members that an optional pattern refers to. -/
def staticMembersOfOption : Option StmtPattern → List String
  | none => []
  | some p => staticMembers p

end

end StmtPattern

/-- The static member that is referred to, if there is one, has a name of some kind. -/
def Reference.Named (named : String → Prop) : Reference → Prop
  | .toClass _ => True
  | .toMember _ member _ => named member

section Named

variable {c : ExpansionContext} {named : String → Prop}

mutual

/-- The syntax of a type refers to no static member. -/
theorem JavaType.named_references : (type : JavaType) → ∀ r ∈ type.references, r.Named named
  | .primitive _ | .wildcard _ none | .var .. | .method .. | .generic .. | .unknown =>
    fun _ none => absurd none List.not_mem_nil
  | .declared _ args => by
    rw [references, List.forall_mem_cons]
    exact ⟨True.intro, JavaType.named_referencesEach args⟩
  | .array element | .wildcard _ (some element) => by
    rw [references]
    exact element.named_references

theorem JavaType.named_referencesEach : (types : List JavaType) →
    ∀ r ∈ JavaType.referencesEach types, r.Named named
  | [] => fun _ none => absurd none List.not_mem_nil
  | type :: types => by
    rw [JavaType.referencesEach, List.forall_mem_append]
    exact ⟨type.named_references, JavaType.named_referencesEach types⟩

end

/-- Nor does a type variable that is used as an expression. -/
theorem ExpansionContext.named_typeVarReferences (name : String) :
    ∀ r ∈ c.typeVarReferences name, r.Named named := by
  unfold typeVarReferences
  split
  · exact JavaType.named_references _
  · exact fun _ none => absurd none List.not_mem_nil
  · exact fun _ none => absurd none List.not_mem_nil

/-- A static member is referred to under its own name. -/
theorem ExpansionContext.named_memberReferences {owner member : String} {type : TypePattern}
    (h : named member) : ∀ r ∈ c.memberReferences owner member type, r.Named named := by
  unfold memberReferences
  split
  · intro r hr
    rw [List.mem_singleton.mp hr]
    exact h
  · exact fun _ none => absurd none List.not_mem_nil

namespace ExprPattern

mutual

/-- The references of a pattern are to the static members that are written in it. -/
theorem named_references : (p : ExprPattern) → (∀ member ∈ p.staticMembers, named member) →
    ∀ r ∈ p.references c, r.Named named
  | .literal _, _ | .localVar _, _ | .primitiveType _, _ | .anyOf _, _ | .repeated _, _
  | .free _, _ => fun _ none => absurd none List.not_mem_nil
  | .typeVar name, _ => ExpansionContext.named_typeVarReferences name
  | .classRef _, _ => by
    rw [references, List.forall_mem_singleton]
    exact True.intro
  | .staticRef _ member _, hm =>
    ExpansionContext.named_memberReferences (hm member List.mem_cons_self)
  | .binary _ p q, hm | .assign p q, hm | .compoundAssign _ p q, hm | .cast p q, hm
  | .instanceOf p q, hm | .index p q, hm => by
    rw [staticMembers, List.forall_mem_append] at hm
    rw [references, List.forall_mem_append]
    exact ⟨named_references p hm.1, named_references q hm.2⟩
  | .unary _ p, hm | .paren p, hm | .arrayType p, hm | .select p _ _, hm | .ofForm p _, hm => by
    rw [references]
    exact named_references p hm
  | .conditional p q r, hm => by
    rw [staticMembers, List.forall_mem_append, List.forall_mem_append] at hm
    rw [references, List.forall_mem_append, List.forall_mem_append]
    exact ⟨named_references p hm.1, named_references q hm.2.1, named_references r hm.2.2⟩
  | .call p ps, hm | .newObject p ps, hm | .typeApply p ps, hm => by
    rw [staticMembers, List.forall_mem_append] at hm
    rw [references, List.forall_mem_append]
    exact ⟨named_references p hm.1, named_referencesOfEach ps hm.2⟩
  | .newArray element dims init, hm => by
    rw [staticMembers, List.forall_mem_append, List.forall_mem_append] at hm
    rw [references, List.forall_mem_append, List.forall_mem_append]
    exact ⟨named_referencesOfOption element hm.1, named_referencesOfEach dims hm.2.1,
      named_referencesOfInit init hm.2.2⟩

/-- Several patterns refer to the static members of each. -/
theorem named_referencesOfEach : (ps : List ExprPattern) →
    (∀ member ∈ staticMembersOfEach ps, named member) →
    ∀ r ∈ referencesOfEach c ps, r.Named named
  | [], _ => fun _ none => absurd none List.not_mem_nil
  | p :: ps, hm => by
    rw [staticMembersOfEach, List.forall_mem_append] at hm
    rw [referencesOfEach, List.forall_mem_append]
    exact ⟨named_references p hm.1, named_referencesOfEach ps hm.2⟩

/-- An optional pattern refers to its static members. -/
theorem named_referencesOfOption : (p : Option ExprPattern) →
    (∀ member ∈ staticMembersOfOption p, named member) →
    ∀ r ∈ referencesOfOption c p, r.Named named
  | none, _ => fun _ none => absurd none List.not_mem_nil
  | some p, hm => named_references p hm

theorem named_referencesOfInit : (ps : Option (List ExprPattern)) →
    (∀ member ∈ staticMembersOfInit ps, named member) →
    ∀ r ∈ referencesOfInit c ps, r.Named named
  | none, _ => fun _ none => absurd none List.not_mem_nil
  | some ps, hm => named_referencesOfEach ps hm

end

end ExprPattern

/-- A declaration refers to the static members of its initializer. -/
theorem DeclPattern.named_references (p : DeclPattern)
    (hm : ∀ member ∈ p.staticMembers, named member) : ∀ r ∈ p.references c, r.Named named := by
  rw [staticMembers, List.forall_mem_append] at hm
  rw [references, List.forall_mem_append]
  exact ⟨p.type.named_references hm.1, ExprPattern.named_referencesOfOption p.init hm.2⟩

namespace StmtPattern

mutual

/-- The references of a statement are to the static members that are written in it. -/
theorem named_references : (p : StmtPattern) → (∀ member ∈ p.staticMembers, named member) →
    ∀ r ∈ p.references c, r.Named named
  | .block stmts, hm => by
    rw [references]
    exact named_referencesOfEach stmts hm
  | .ifElse cond yes no, hm => by
    rw [staticMembers, List.forall_mem_append, List.forall_mem_append] at hm
    rw [references, List.forall_mem_append, List.forall_mem_append]
    exact ⟨cond.named_references hm.1, named_references yes hm.2.1,
      named_referencesOfOption no hm.2.2⟩
  | .whileLoop cond body, hm | .synchronized cond body, hm => by
    rw [staticMembers, List.forall_mem_append] at hm
    rw [references, List.forall_mem_append]
    exact ⟨cond.named_references hm.1, named_references body hm.2⟩
  | .doLoop body cond, hm => by
    rw [staticMembers, List.forall_mem_append] at hm
    rw [references, List.forall_mem_append]
    exact ⟨named_references body hm.2, cond.named_references hm.1⟩
  | .forLoop init cond update body, hm => by
    rw [staticMembers, List.forall_mem_append, List.forall_mem_append, List.forall_mem_append] at hm
    rw [references, List.forall_mem_append, List.forall_mem_append, List.forall_mem_append]
    exact ⟨named_referencesOfEach init hm.1, ExprPattern.named_referencesOfOption cond hm.2.1,
      ExprPattern.named_referencesOfEach update hm.2.2.1, named_references body hm.2.2.2⟩
  | .forEach var iterable body, hm => by
    rw [staticMembers, List.forall_mem_append, List.forall_mem_append] at hm
    rw [references, List.forall_mem_append, List.forall_mem_append]
    exact ⟨var.named_references hm.1, iterable.named_references hm.2.1,
      named_references body hm.2.2⟩
  | .ret value, hm => by
    rw [references]
    exact ExprPattern.named_referencesOfOption value hm
  | .raise value, hm | .expr value, hm => by
    rw [references]
    exact value.named_references hm
  | .empty, _ => fun _ none => absurd none List.not_mem_nil
  | .declare decl, hm => by
    rw [references]
    exact decl.named_references hm

/-- Several patterns of statements refer to the static members of each. -/
theorem named_referencesOfEach : (ps : List StmtPattern) →
    (∀ member ∈ staticMembersOfEach ps, named member) →
    ∀ r ∈ referencesOfEach c ps, r.Named named
  | [], _ => fun _ none => absurd none List.not_mem_nil
  | p :: ps, hm => by
    rw [staticMembersOfEach, List.forall_mem_append] at hm
    rw [referencesOfEach, List.forall_mem_append]
    exact ⟨named_references p hm.1, named_referencesOfEach ps hm.2⟩

/-- An optional pattern of a statement refers to its static members. -/
theorem named_referencesOfOption : (p : Option StmtPattern) →
    (∀ member ∈ staticMembersOfOption p, named member) →
    ∀ r ∈ referencesOfOption c p, r.Named named
  | none, _ => fun _ none => absurd none List.not_mem_nil
  | some p, hm => named_references p hm

end

end StmtPattern

end Named

/-! ### Expansions -/

/-- Every reference keeps a property of the pending imports, if the static members that are
referred to have names of some kind. -/
structure ExpansionContext.Keeps (c : ExpansionContext) (I : PendingImports → Prop)
    (named : String → Prop) : Prop where
  toClass : ∀ name, (c.classReference name).Keeps I
  toMember : ∀ owner member type, named member → (c.staticReference owner member type).Keeps I

section Expansion

variable {c : ExpansionContext} {I : PendingImports → Prop} {named : String → Prop}

/-- A reference to a member of a name of the kind keeps the property. -/
theorem ExpansionContext.Keeps.refer (h : c.Keeps I named) {r : Reference} (hr : r.Named named) :
    (c.policy.refer c.unit r).Keeps I := by
  cases r with
  | toClass name => exact h.toClass name
  | toMember owner member type => exact h.toMember owner member type hr

/-- An expansion keeps what its references keep. -/
theorem ExprPattern.expand_keeps (h : c.Keeps I named) (p : ExprPattern)
    (hm : ∀ member ∈ p.staticMembers, named member) : (p.expand c).Keeps I :=
  (p.expand_issues c).keeps fun r hr => h.refer (p.named_references hm r hr)

/-- An expansion of statements keeps what their references keep. -/
theorem StmtPattern.expandEach_keeps (h : c.Keeps I named) (ps : List StmtPattern)
    (hm : ∀ member ∈ staticMembersOfEach ps, named member) : (expandEach c ps).Keeps I :=
  (expandEach_issues c ps).keeps fun r hr => h.refer (named_referencesOfEach ps hm r hr)

namespace BlockTemplate

/-- Statements that replace another one keep the property, as their expansion does. -/
theorem replaceStmt_keeps (h : c.Keeps I named) {ps : List StmtPattern} (target : Stmt)
    (hm : ∀ member ∈ StmtPattern.staticMembersOfEach ps, named member) :
    (replaceStmt c ps target).Keeps I :=
  .bind (StmtPattern.expandEach_keeps h ps hm) fun _ => .pure _

/-- Replacing statements keeps what the references keep. -/
theorem replaceEach_keeps (h : c.Keeps I named) (ps : List StmtPattern) (targets : List Stmt)
    (hm : ∀ member ∈ StmtPattern.staticMembersOfEach ps, named member) :
    (replaceEach c ps targets).Keeps I := by
  induction ps, targets using replaceEach.induct with
  | case1 targets =>
    rw [replaceEach]
    exact .pure _
  | case2 p ps =>
    rw [replaceEach]
    exact .pure _
  | case3 p ps last =>
    rw [replaceEach]
    exact .bind (replaceStmt_keeps h last hm) fun _ => .pure _
  | case4 p ps target next targets ih =>
    rw [replaceEach]
    rw [StmtPattern.staticMembersOfEach, List.forall_mem_append] at hm
    refine .bind (replaceStmt_keeps h target ?_) fun _ => .bind (ih hm.2) fun _ => .pure _
    rw [StmtPattern.staticMembersOfEach, List.forall_mem_append]
    exact ⟨hm.1, fun _ none => absurd none List.not_mem_nil⟩

end BlockTemplate

end Expansion

/-! ### Imports apart -/

namespace ImportPolicy

variable {policy : ImportPolicy} {u : CompilationUnit} {p q : PendingImports}
  {name owner member : String} {type : JavaType} {e : Expr}

/-- A class is written after a decision about the name that is imported for it. -/
theorem ClassWritten.decision (written : policy.ClassWritten u p name e q) :
    ∃ ok, u.ClassDecision (policy.imported name) p ok q := by
  cases written with
  | through decision | qualified decision => exact ⟨_, decision⟩

/-- A static member is written after a decision about its own name or about its class. -/
theorem Written.decision (written : policy.Written u p (.toMember owner member type) e q) :
    (∃ ok, u.StaticDecision (owner ++ "." ++ member) member p ok q) ∨
      ∃ ok, u.ClassDecision (policy.imported owner) p ok q := by
  cases written with
  | alone _ decision => exact .inl ⟨_, decision⟩
  | selected written => exact .inr written.decision

end ImportPolicy

namespace ExpansionContext

variable (c : ExpansionContext)

/-- Every reference keeps the imported classes apart. -/
theorem keeps_classesApart : c.Keeps (·.ClassesApart c.unit) fun _ => True where
  toClass name p apart := by
    obtain ⟨ok, decision⟩ := (c.policy.classWritten c.unit name p).decision
    exact decision.classesApart apart
  toMember owner member type _ p apart := by
    rcases (c.policy.written c.unit (.toMember owner member type) p).decision with
      ⟨ok, decision⟩ | ⟨ok, decision⟩
    · exact decision.classesApart apart
    · exact decision.classesApart apart

/-- Every reference keeps the imported static members apart, if their names are simple. -/
theorem keeps_staticsApart : c.Keeps (·.StaticsApart c.unit) fun member => '.' ∉ member.toList where
  toClass name p apart := by
    obtain ⟨ok, decision⟩ := (c.policy.classWritten c.unit name p).decision
    exact decision.staticsApart apart
  toMember owner member type simple p apart := by
    rcases (c.policy.written c.unit (.toMember owner member type) p).decision with
      ⟨ok, decision⟩ | ⟨ok, decision⟩
    · exact decision.staticsApart (Dotted.simpleName_append simple) apart
    · exact decision.staticsApart apart

end ExpansionContext

end JavaRefactor
