import JavaRefactor.Span
import JavaRefactor.Symbol
import JavaRefactor.Tree.Literal
import JavaRefactor.Tree.Operator

/-!
# Expressions

The typed syntax tree of Java expressions, type syntax included.  Every node carries its
resolved type and the span of its source text.  `Expr.children` lists the direct
subexpressions in source order; everything that walks a tree follows that order, and
`Expr.induction` is the matching principle of proof.
-/

namespace JavaRefactor

/-- What every expression node carries. -/
structure NodeInfo where
  type : JavaType
  span : Span
  deriving DecidableEq, Inhabited

/-- The data of a synthesized node of some type. -/
def NodeInfo.ofType (type : JavaType) : NodeInfo := ⟨type, .synthetic⟩

/-- An expression, or a piece of type syntax. -/
inductive Expr where
  | literal (info : NodeInfo) (value : Literal)
  | ident (info : NodeInfo) (name : String) (symbol : Option SymbolId)
  /-- A member of a receiver, or a component of a qualified name. -/
  | select (info : NodeInfo) (receiver : Expr) (name : String) (symbol : Option SymbolId)
  | this (info : NodeInfo)
  | super (info : NodeInfo)
  | binary (info : NodeInfo) (op : BinaryOperator) (left right : Expr)
  | unary (info : NodeInfo) (op : UnaryOperator) (operand : Expr)
  | assign (info : NodeInfo) (target value : Expr)
  | compoundAssign (info : NodeInfo) (op : BinaryOperator) (target value : Expr)
  | conditional (info : NodeInfo) (cond yes no : Expr)
  | cast (info : NodeInfo) (type operand : Expr)
  | instanceOf (info : NodeInfo) (operand type : Expr)
  | call (info : NodeInfo) (callee : Expr) (args : List Expr)
  | index (info : NodeInfo) (array position : Expr)
  /-- An array creation; without an element type it is a bare initializer. -/
  | newArray (info : NodeInfo) (element : Option Expr) (dims : List Expr)
      (init : Option (List Expr))
  | newObject (info : NodeInfo) (type : Expr) (args : List Expr)
  | paren (info : NodeInfo) (inner : Expr)
  | primitiveType (info : NodeInfo) (kind : Primitive)
  | typeApply (info : NodeInfo) (base : Expr) (args : List Expr)
  | arrayType (info : NodeInfo) (element : Expr)
  deriving Inhabited

/-- The form of an expression, without its parts. -/
inductive ExprForm where
  | literal | ident | select | this | super | binary | unary | assign | compoundAssign
  | conditional | cast | instanceOf | call | index | newArray | newObject | paren
  | primitiveType | typeApply | arrayType
  deriving DecidableEq, Repr

namespace Expr

/-! ### What a node carries -/

/-- The data at the root of an expression. -/
def info : Expr → NodeInfo
  | literal i _ | ident i _ _ | select i _ _ _ | this i | super i | binary i _ _ _
  | unary i _ _ | assign i _ _ | compoundAssign i _ _ _ | conditional i _ _ _ | cast i _ _
  | instanceOf i _ _ | call i _ _ | index i _ _ | newArray i _ _ _ | newObject i _ _
  | paren i _ | primitiveType i _ | typeApply i _ _ | arrayType i _ => i

/-- The same expression with other data at its root. -/
def withInfo (i : NodeInfo) : Expr → Expr
  | literal _ value => literal i value
  | ident _ name symbol => ident i name symbol
  | select _ receiver name symbol => select i receiver name symbol
  | this _ => this i
  | super _ => super i
  | binary _ op left right => binary i op left right
  | unary _ op operand => unary i op operand
  | assign _ target value => assign i target value
  | compoundAssign _ op target value => compoundAssign i op target value
  | conditional _ cond yes no => conditional i cond yes no
  | cast _ type operand => cast i type operand
  | instanceOf _ operand type => instanceOf i operand type
  | call _ callee args => call i callee args
  | index _ array position => index i array position
  | newArray _ element dims init => newArray i element dims init
  | newObject _ type args => newObject i type args
  | paren _ inner => paren i inner
  | primitiveType _ kind => primitiveType i kind
  | typeApply _ base args => typeApply i base args
  | arrayType _ element => arrayType i element

/-- The resolved type. -/
def type (e : Expr) : JavaType := e.info.type

/-- The span of the source text. -/
def span (e : Expr) : Span := e.info.span

/-- The same expression with another type. -/
def withType (e : Expr) (type : JavaType) : Expr := e.withInfo ⟨type, e.span⟩

/-- The same expression with another span. -/
def withSpan (e : Expr) (span : Span) : Expr := e.withInfo ⟨e.type, span⟩

/-- The data at the root are those that were put there. -/
@[simp] theorem info_withInfo (i : NodeInfo) (e : Expr) : (e.withInfo i).info = i := by
  cases e <;> rfl

/-- An expression keeps its own data. -/
@[simp] theorem withInfo_info (e : Expr) : e.withInfo e.info = e := by
  cases e <;> rfl

/-- The form of an expression. -/
def form : Expr → ExprForm
  | literal .. => .literal
  | ident .. => .ident
  | select .. => .select
  | this .. => .this
  | super .. => .super
  | binary .. => .binary
  | unary .. => .unary
  | assign .. => .assign
  | compoundAssign .. => .compoundAssign
  | conditional .. => .conditional
  | cast .. => .cast
  | instanceOf .. => .instanceOf
  | call .. => .call
  | index .. => .index
  | newArray .. => .newArray
  | newObject .. => .newObject
  | paren .. => .paren
  | primitiveType .. => .primitiveType
  | typeApply .. => .typeApply
  | arrayType .. => .arrayType

/-! ### Precedence -/

/-- The level of the conditional operator. -/
def conditionalLevel : Nat := 13

/-- The level of assignments, the loosest of all: a place of this level takes any
expression without parentheses. -/
def assignLevel : Nat := 14

/-- The binding level of an expression; a primary expression has level zero. -/
def precedence : Expr → Nat
  | binary _ op _ _ => op.precedence
  | unary _ op _ => op.precedence
  | cast .. => 2
  | instanceOf .. => 6
  | conditional .. => conditionalLevel
  | assign .. => assignLevel
  | compoundAssign .. => assignLevel
  | _ => 0

/-- No expression binds more loosely than an assignment. -/
theorem precedence_le_assignLevel (e : Expr) : e.precedence ≤ assignLevel := by
  cases e with
  | binary _ op _ _ =>
    show op.precedence ≤ 14
    cases op <;> decide
  | unary _ op _ =>
    show op.precedence ≤ 14
    cases op <;> decide
  | _ => simp [precedence, assignLevel, conditionalLevel]

/-! ### Children -/

/-- The direct subexpressions, in source order. -/
def children : Expr → List Expr
  | literal .. | ident .. | this .. | super .. | primitiveType .. => []
  | select _ receiver _ _ => [receiver]
  | binary _ _ left right => [left, right]
  | unary _ _ operand => [operand]
  | assign _ target value => [target, value]
  | compoundAssign _ _ target value => [target, value]
  | conditional _ cond yes no => [cond, yes, no]
  | cast _ type operand => [type, operand]
  | instanceOf _ operand type => [operand, type]
  | call _ callee args => callee :: args
  | index _ array position => [array, position]
  | newArray _ element dims init => element.toList ++ (dims ++ init.getD [])
  | newObject _ type args => type :: args
  | paren _ inner => [inner]
  | typeApply _ base args => base :: args
  | arrayType _ element => [element]

/-- A child is smaller than the expression. -/
theorem sizeOf_lt_of_mem_children {e c : Expr} (h : c ∈ e.children) : sizeOf c < sizeOf e := by
  have list {xs : List Expr} (hc : c ∈ xs) : sizeOf c < sizeOf xs := List.sizeOf_lt_of_mem hc
  cases e <;> simp only [children, List.mem_cons, List.not_mem_nil, or_false] at h
  case newArray i element dims init =>
    rw [List.mem_append, List.mem_append] at h
    simp only [newArray.sizeOf_spec]
    rcases h with h | h | h
    · obtain rfl := Option.mem_toList.1 h
      simp only [Option.some.sizeOf_spec]
      omega
    · have := list h
      omega
    · cases init with
      | none => exact absurd h List.not_mem_nil
      | some xs =>
        have : sizeOf c < sizeOf xs := list h
        simp only [Option.some.sizeOf_spec]
        omega
  case conditional => rcases h with rfl | rfl | rfl <;> simp <;> omega
  all_goals first
    | (rcases h with rfl | rfl <;> simp <;> omega)
    | (rcases h with rfl | h
       · simp
         omega
       · have := list h
         simp
         omega)

/-- To prove something of every expression, prove it of each one whose children have it. -/
theorem induction {motive : Expr → Prop}
    (step : ∀ e, (∀ c ∈ e.children, motive c) → motive e) (e : Expr) : motive e :=
  step e fun c _ => induction step c
termination_by sizeOf e
decreasing_by exact sizeOf_lt_of_mem_children ‹_›

/-- The expression and everything inside it, each node before its children. -/
def nodes (e : Expr) : List Expr :=
  e :: e.children.attach.flatMap fun c => nodes c.1
termination_by sizeOf e
decreasing_by exact sizeOf_lt_of_mem_children c.2

/-- The nodes of an expression are its root and the nodes of its children. -/
theorem nodes_eq (e : Expr) : e.nodes = e :: e.children.flatMap nodes := by
  rw [nodes]
  simp [List.flatMap]

/-! ### Simple questions -/

/-- The symbol that an identifier or a member selection resolves to. -/
def symbol? : Expr → Option SymbolId
  | ident _ _ symbol => symbol
  | select _ _ _ symbol => symbol
  | _ => none

/-- Whether a symbol is referred to anywhere inside. -/
def references (e : Expr) (id : SymbolId) : Bool :=
  e.nodes.any fun node => node.symbol? == some id

/-- The expression inside any number of enclosing parentheses. -/
def skipParens : Expr → Expr
  | paren _ inner => inner.skipParens
  | e => e

/-! ### Synthesized nodes -/

/-- A literal of its own type. -/
def ofLiteral (value : Literal) : Expr := literal (.ofType value.type) value

/-- The reference that a qualified name writes: its components selected one from another.
Only the whole has the given type. -/
def qualifiedName (name : String) (type : JavaType) : Expr :=
  let unresolved := NodeInfo.ofType .unknown
  let chain :=
    match Dotted.components name with
    | [] => ident unresolved "" none
    | first :: rest =>
      rest.foldl (fun receiver part => select unresolved receiver part none)
        (ident unresolved first none)
  chain.withType type

end Expr

end JavaRefactor
