import JavaRefactor.Layout.Unit
import JavaRefactor.Proofs.Layout.Expr

/-!
# Syntax nodes

Expressions, statements, methods and classes are the nodes of a file that have other nodes
inside.  `SyntaxNode` is their union: every node has a span, children in the order in which
a traversal visits them, and layouts (`SyntaxNode.LaidOutAs`).  How a statement or a method
is laid out depends on its indentation, which the relation leaves open.
-/

namespace JavaRefactor

open Layout

/-- A node of a file. -/
inductive SyntaxNode where
  | expr (e : Expr)
  | stmt (s : Stmt)
  | method (m : MethodDecl)
  | type (t : TypeDecl)

/-- A part of a statement as a node. -/
def StmtPart.node : StmtPart → SyntaxNode
  | expr e => .expr e
  | stmt s => .stmt s

namespace SyntaxNode

/-- The span that a node carries. -/
def span : SyntaxNode → Span
  | expr e => e.span
  | stmt s => s.span
  | method m => m.span
  | type t => t.span

/-- The nodes directly inside a node, in the order in which they are visited. -/
def children : SyntaxNode → List SyntaxNode
  | expr e => e.children.map expr
  | stmt s => s.children.map StmtPart.node
  | method m => (m.returnType :: m.params.flatMap VarDecl.children).map expr ++ [stmt m.body]
  | type t => (t.fields.flatMap VarDecl.children).map expr ++ t.methods.map method

/-- To prove something of every node, prove it of each one whose children have it. -/
theorem induction {motive : SyntaxNode → Prop}
    (step : ∀ n, (∀ c ∈ n.children, motive c) → motive n) (n : SyntaxNode) : motive n := by
  have exprs (e : Expr) : motive (expr e) := by
    induction e using Expr.induction with
    | step e ih =>
      refine step (expr e) ?_
      intro c hc
      obtain ⟨a, ha, rfl⟩ := List.mem_map.mp hc
      exact ih a ha
  have stmts (s : Stmt) : motive (stmt s) := by
    induction s using Stmt.induction with
    | step s ih =>
      refine step (stmt s) ?_
      intro c hc
      obtain ⟨part, hpart, rfl⟩ := List.mem_map.mp hc
      cases part with
      | expr e => exact exprs e
      | stmt t => exact ih t hpart
  have methods (m : MethodDecl) : motive (method m) := by
    refine step (method m) ?_
    intro c hc
    rcases List.mem_append.mp hc with hc | hc
    · obtain ⟨e, -, rfl⟩ := List.mem_map.mp hc
      exact exprs e
    · obtain rfl := List.mem_singleton.mp hc
      exact stmts m.body
  cases n with
  | expr e => exact exprs e
  | stmt s => exact stmts s
  | method m => exact methods m
  | type t =>
    refine step (type t) ?_
    intro c hc
    rcases List.mem_append.mp hc with hc | hc
    · obtain ⟨e, -, rfl⟩ := List.mem_map.mp hc
      exact exprs e
    · obtain ⟨m, -, rfl⟩ := List.mem_map.mp hc
      exact methods m

end SyntaxNode

/-- The statement and everything inside it, each node before its children. -/
def Stmt.nodes (s : Stmt) : List SyntaxNode :=
  .stmt s :: s.children.attach.flatMap fun
    | ⟨.expr e, _⟩ => e.nodes.map .expr
    | ⟨.stmt c, _⟩ => nodes c
termination_by sizeOf s
decreasing_by exact sizeOf_lt_of_mem_children ‹_›

/-- The method and everything inside it, each node before its children. -/
def MethodDecl.nodes (m : MethodDecl) : List SyntaxNode :=
  .method m
    :: (m.returnType :: m.params.flatMap VarDecl.children).flatMap (fun e => e.nodes.map .expr)
    ++ m.body.nodes

/-- The class and everything inside it, each node before its children. -/
def TypeDecl.nodes (t : TypeDecl) : List SyntaxNode :=
  .type t :: (t.fields.flatMap VarDecl.children).flatMap (fun e => e.nodes.map .expr)
    ++ t.methods.flatMap MethodDecl.nodes

namespace SyntaxNode

/-- A node and everything inside it, each node before its children. -/
def nodes : SyntaxNode → List SyntaxNode
  | expr e => e.nodes.map expr
  | stmt s => s.nodes
  | method m => m.nodes
  | type t => t.nodes

/-- The nodes of an expression are the expression and those of its children. -/
theorem nodes_expr (e : Expr) :
    (expr e).nodes = expr e :: (expr e).children.flatMap nodes := by
  have inner : e.children.flatMap (fun c => c.nodes.map expr)
      = (e.children.map expr).flatMap nodes := by
    rw [List.flatMap_map]
    rfl
  rw [nodes, Expr.nodes_eq, List.map_cons, List.map_flatMap, inner]
  rfl

/-- The nodes of a statement are the statement and those of its parts. -/
theorem nodes_stmt (s : Stmt) :
    (stmt s).nodes = stmt s :: (stmt s).children.flatMap nodes := by
  have whole : s.children.attach.flatMap (fun part => part.1.node.nodes)
      = s.children.flatMap fun part => part.node.nodes := by
    simp [List.flatMap]
  rw [nodes, Stmt.nodes, children, List.flatMap_map, ← whole]
  congr 2
  funext ⟨part, _⟩
  cases part <;> rfl

/-- The nodes of a node are itself and those of its children, in the order of the
children. -/
theorem nodes_eq (n : SyntaxNode) : n.nodes = n :: n.children.flatMap nodes := by
  cases n with
  | expr e => exact nodes_expr e
  | stmt s => exact nodes_stmt s
  | method m => simp [nodes, MethodDecl.nodes, children, List.flatMap_map]
  | type t => simp [nodes, TypeDecl.nodes, children, List.flatMap_map]

/-- A node is among its own nodes. -/
theorem mem_nodes_self (n : SyntaxNode) : n ∈ n.nodes := by
  rw [nodes_eq]
  exact List.mem_cons_self

/-- The children of a node are among its nodes. -/
theorem mem_nodes_of_mem_children {n c : SyntaxNode} (h : c ∈ n.children) : c ∈ n.nodes := by
  rw [nodes_eq]
  exact List.mem_cons_of_mem _ (List.mem_flatMap.mpr ⟨c, h, c.mem_nodes_self⟩)

/-- The nodes of an inner node are nodes of the whole. -/
theorem nodes_trans {n m k : SyntaxNode} (hm : m ∈ n.nodes) (hk : k ∈ m.nodes) :
    k ∈ n.nodes := by
  induction n using SyntaxNode.induction with
  | step n ih =>
    rw [nodes_eq] at hm
    rcases List.mem_cons.mp hm with rfl | hm
    · exact hk
    · obtain ⟨c, hc, hm⟩ := List.mem_flatMap.mp hm
      rw [nodes_eq]
      exact List.mem_cons_of_mem _ (List.mem_flatMap.mpr ⟨c, hc, ih c hc hm⟩)

/-- The expressions inside a statement are among its nodes. -/
theorem expr_mem_nodes {s : Stmt} {e : Expr} (he : e ∈ s.exprs) : expr e ∈ (stmt s).nodes := by
  induction s using Stmt.induction with
  | step s ih =>
    rw [Stmt.exprs_eq] at he
    obtain ⟨part, hpart, he⟩ := List.mem_flatMap.mp he
    rw [nodes_eq]
    refine List.mem_cons_of_mem _ (List.mem_flatMap.mpr ⟨part.node, ?_, ?_⟩)
    · exact List.mem_map_of_mem hpart
    · cases part with
      | expr x => exact List.mem_map_of_mem he
      | stmt t => exact ih t hpart he

/-- A statement and the statements inside it are among its nodes. -/
theorem stmt_mem_nodes {s t : Stmt} (ht : t ∈ s.stmts) : stmt t ∈ (stmt s).nodes := by
  induction s using Stmt.induction with
  | step s ih =>
    rw [Stmt.stmts_eq] at ht
    rw [nodes_eq]
    rcases List.mem_cons.mp ht with rfl | ht
    · exact List.mem_cons_self
    · obtain ⟨part, hpart, ht⟩ := List.mem_flatMap.mp ht
      refine List.mem_cons_of_mem _ (List.mem_flatMap.mpr ⟨part.node, ?_, ?_⟩)
      · exact List.mem_map_of_mem hpart
      · cases part with
        | expr x => exact absurd ht List.not_mem_nil
        | stmt u => exact ih u hpart ht

/-! ### Layouts of nodes -/

/-- A layout is one of a node, at some indentation.  The comments above a statement belong
to the node around it. -/
def LaidOutAs (l : Layout) : SyntaxNode → Prop
  | expr e => e.layout none = l
  | stmt s => ∃ ind inHeader, subnodes (s.layout none ind inHeader) = [l]
  | method m => ∃ ind, m.layout ind = l
  | type t => t.layout = l

end SyntaxNode

end JavaRefactor
