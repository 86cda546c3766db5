import JavaRefactor.Tree.Stmt

/-!
# Rebuilding a tree from new parts

`Expr.withChildren` and `Stmt.withParts` put new direct parts into a node, in source order.
A list that is too short leaves the remaining parts as they were.  Given as many children
as the node has, the rebuilt expression has exactly these (`children_withChildren`).
`threadEach` passes a state through a list of parts from left to right.
-/

namespace JavaRefactor

/-- Apply a step to each element from left to right, each step starting from the state that
the one before it left. -/
def threadEach {α β σ : Type} (step : α → σ → β × σ) : List α → σ → List β × σ
  | [], s => ([], s)
  | a :: as, s =>
    let (b, s) := step a s
    let (bs, s) := threadEach step as s
    (b :: bs, s)

/-- Stepping through images is stepping through the elements with the images taken on the way. -/
theorem threadEach_map {α β γ σ : Type} (step : β → σ → γ × σ) (f : α → β) (as : List α)
    (s : σ) : threadEach step (as.map f) s = threadEach (fun a => step (f a)) as s := by
  induction as generalizing s with
  | nil => rfl
  | cons a as ih => simp [threadEach, ih]

/-- Each element gives one result. -/
theorem length_threadEach {α β σ : Type} (step : α → σ → β × σ) (as : List α) (s : σ) :
    (threadEach step as s).1.length = as.length := by
  induction as generalizing s with
  | nil => rfl
  | cons a as ih => simp [threadEach, ih]

namespace Expr

/-- The expression with its direct subexpressions replaced in source order. -/
def withChildren (cs : List Expr) : Expr → Expr
  | literal i value => literal i value
  | ident i name symbol => ident i name symbol
  | select i receiver name symbol => select i (cs.getD 0 receiver) name symbol
  | this i => this i
  | super i => super i
  | binary i op left right => binary i op (cs.getD 0 left) (cs.getD 1 right)
  | unary i op operand => unary i op (cs.getD 0 operand)
  | assign i target value => assign i (cs.getD 0 target) (cs.getD 1 value)
  | compoundAssign i op target value =>
    compoundAssign i op (cs.getD 0 target) (cs.getD 1 value)
  | conditional i cond yes no =>
    conditional i (cs.getD 0 cond) (cs.getD 1 yes) (cs.getD 2 no)
  | cast i type operand => cast i (cs.getD 0 type) (cs.getD 1 operand)
  | instanceOf i operand type => instanceOf i (cs.getD 0 operand) (cs.getD 1 type)
  | call i callee _ => call i (cs.getD 0 callee) cs.tail
  | index i array position => index i (cs.getD 0 array) (cs.getD 1 position)
  | newArray i none dims init =>
    newArray i none (cs.take dims.length) (init.map fun _ => cs.drop dims.length)
  | newArray i (some element) dims init =>
    newArray i (some (cs.getD 0 element)) (cs.tail.take dims.length)
      (init.map fun _ => cs.tail.drop dims.length)
  | newObject i type _ => newObject i (cs.getD 0 type) cs.tail
  | paren i inner => paren i (cs.getD 0 inner)
  | primitiveType i kind => primitiveType i kind
  | typeApply i base _ => typeApply i (cs.getD 0 base) cs.tail
  | arrayType i element => arrayType i (cs.getD 0 element)

/-- Other children leave the data at the root. -/
@[simp] theorem info_withChildren (cs : List Expr) (e : Expr) :
    (e.withChildren cs).info = e.info := by
  cases e with
  | newArray i element dims init => cases element <;> rfl
  | _ => rfl

/-- Other data at the root leave the children. -/
@[simp] theorem children_withInfo (i : NodeInfo) (e : Expr) :
    (e.withInfo i).children = e.children := by
  cases e <;> rfl

/-- The dimensions and the initializer of a rebuilt array creation are what it was given. -/
theorem newArray_parts {cs dims : List Expr} {init : Option (List Expr)}
    (h : cs.length = dims.length + (init.getD []).length) :
    cs.take dims.length ++ (init.map fun _ => cs.drop dims.length).getD [] = cs := by
  cases init with
  | none =>
    rw [Option.map_none, Option.getD_none, List.append_nil]
    exact List.take_of_length_le (Nat.le_of_eq h)
  | some xs =>
    rw [Option.map_some, Option.getD_some]
    exact List.take_append_drop _ _

/-- A rebuilt expression has the children that it was given. -/
theorem children_withChildren {cs : List Expr} {e : Expr}
    (h : cs.length = e.children.length) : (e.withChildren cs).children = cs := by
  cases e with
  | newArray i element dims init =>
    have total : cs.length = element.toList.length + (dims.length + (init.getD []).length) := by
      rw [h, children, List.length_append, List.length_append]
    cases element with
    | none =>
      have total : cs.length = dims.length + (init.getD []).length := by
        rw [total, Option.toList_none, List.length_nil, Nat.zero_add]
      exact newArray_parts total
    | some first =>
      cases cs with
      | nil =>
        rw [Option.toList_some, List.length_cons, List.length_nil] at total
        omega
      | cons c cs =>
        have total : cs.length = dims.length + (init.getD []).length := by
          rw [Option.toList_some, List.length_cons, List.length_cons, List.length_nil] at total
          omega
        exact congrArg (c :: ·) (newArray_parts total)
  | _ =>
    rcases cs with _ | ⟨a, _ | ⟨b, _ | ⟨c, cs⟩⟩⟩ <;> simp_all [children, withChildren]

end Expr

namespace VarDecl

/-- The declaration with its expressions replaced in source order. -/
def withChildren (cs : List Expr) (d : VarDecl) : VarDecl :=
  { d with type := cs.getD 0 d.type, init := d.init.map fun e => cs.getD 1 e }

/-- Expressions beyond those of the declaration are not used. -/
theorem withChildren_append {cs : List Expr} {d : VarDecl} (h : d.children.length ≤ cs.length)
    (more : List Expr) : d.withChildren (cs ++ more) = d.withChildren cs := by
  obtain ⟨name, type, init, symbol, isFinal⟩ := d
  rcases cs with _ | ⟨c, cs⟩
  · exact absurd h (by simp [children])
  · cases init with
    | none => rfl
    | some e =>
      rcases cs with _ | ⟨c', cs⟩
      · exact absurd h (by simp [children])
      · rfl

end VarDecl

namespace StmtPart

/-- The expressions among some parts, in their order. -/
def exprs (parts : List StmtPart) : List Expr :=
  parts.filterMap fun
    | .expr e => some e
    | .stmt _ => none

/-- The statements among some parts, in their order. -/
def stmts (parts : List StmtPart) : List Stmt :=
  parts.filterMap fun
    | .expr _ => none
    | .stmt s => some s

@[simp] theorem exprs_nil : exprs [] = [] := rfl

@[simp] theorem stmts_nil : stmts [] = [] := rfl

@[simp] theorem exprs_append (xs ys : List StmtPart) : exprs (xs ++ ys) = exprs xs ++ exprs ys :=
  List.filterMap_append

@[simp] theorem stmts_append (xs ys : List StmtPart) : stmts (xs ++ ys) = stmts xs ++ stmts ys :=
  List.filterMap_append

@[simp] theorem exprs_expr (e : Expr) (parts : List StmtPart) :
    exprs (.expr e :: parts) = e :: exprs parts := rfl

@[simp] theorem exprs_stmt (s : Stmt) (parts : List StmtPart) :
    exprs (.stmt s :: parts) = exprs parts := rfl

@[simp] theorem stmts_expr (e : Expr) (parts : List StmtPart) :
    stmts (.expr e :: parts) = stmts parts := rfl

@[simp] theorem stmts_stmt (s : Stmt) (parts : List StmtPart) :
    stmts (.stmt s :: parts) = s :: stmts parts := rfl

@[simp] theorem exprs_map_expr (es : List Expr) : exprs (es.map .expr) = es := by
  induction es with
  | nil => rfl
  | cons e es ih => exact congrArg (e :: ·) ih

@[simp] theorem stmts_map_expr (es : List Expr) : stmts (es.map .expr) = [] := by
  induction es with
  | nil => rfl
  | cons e es ih => exact ih

@[simp] theorem exprs_map_stmt (ss : List Stmt) : exprs (ss.map .stmt) = [] := by
  induction ss with
  | nil => rfl
  | cons s ss ih => exact ih

@[simp] theorem stmts_map_stmt (ss : List Stmt) : stmts (ss.map .stmt) = ss := by
  induction ss with
  | nil => rfl
  | cons s ss ih => exact congrArg (s :: ·) ih

end StmtPart

namespace Stmt

/-- The same statement with other data at its root. -/
def withInfo (i : StmtInfo) : Stmt → Stmt
  | block _ stmts => block i stmts
  | ifElse _ cond yes no => ifElse i cond yes no
  | whileLoop _ cond body => whileLoop i cond body
  | doLoop _ body cond => doLoop i body cond
  | forLoop _ init cond update body => forLoop i init cond update body
  | forEach _ var iterable body => forEach i var iterable body
  | ret _ value => ret i value
  | raise _ value => raise i value
  | synchronized _ lock body => synchronized i lock body
  | expr _ value => expr i value
  | empty _ => empty i
  | declare _ decl => declare i decl

/-- The same statement with another span. -/
def withSpan (s : Stmt) (span : Span) : Stmt := s.withInfo ⟨span, s.comments⟩

/-- The statement with its direct subexpressions and its direct substatements replaced,
each in source order. -/
def withParts (es : List Expr) (ss : List Stmt) : Stmt → Stmt
  | block i _ => block i ss
  | ifElse i cond yes no =>
    ifElse i (es.getD 0 cond) (ss.getD 0 yes) (no.map fun s => ss.getD 1 s)
  | whileLoop i cond body => whileLoop i (es.getD 0 cond) (ss.getD 0 body)
  | doLoop i body cond => doLoop i (ss.getD 0 body) (es.getD 0 cond)
  | forLoop i init none _ body =>
    forLoop i (ss.take init.length) none es (ss.getD init.length body)
  | forLoop i init (some cond) _ body =>
    forLoop i (ss.take init.length) (some (es.getD 0 cond)) es.tail (ss.getD init.length body)
  | forEach i var iterable body =>
    forEach i (var.withChildren es) (es.getD var.children.length iterable) (ss.getD 0 body)
  | ret i value => ret i (value.map fun e => es.getD 0 e)
  | raise i value => raise i (es.getD 0 value)
  | synchronized i lock body => synchronized i (es.getD 0 lock) (ss.getD 0 body)
  | expr i value => expr i (es.getD 0 value)
  | empty i => empty i
  | declare i decl => declare i (decl.withChildren es)

end Stmt

end JavaRefactor
