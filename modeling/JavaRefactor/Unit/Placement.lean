import JavaRefactor.Tree.Rebuild
import JavaRefactor.Unit.Declaration

/-!
# Placing a tree in its text

The spans of a laid-out file come as one list, in the order in which the nodes are opened.
Placing a tree takes them from the front of the list, one for each node, and returns the
tree with its spans together with the spans that were not used.  A node for which none is
left gets the empty span.
-/

namespace JavaRefactor

namespace Expr

/-- The expression with spans from the front of a list, and the spans left over. -/
def place (e : Expr) (spans : List Span) : Expr × List Span :=
  let (children, rest) :=
    threadEach (fun c spans => place c.1 spans) e.children.attach spans.tail
  ((e.withSpan (spans.headD .synthetic)).withChildren children, rest)
termination_by sizeOf e
decreasing_by exact sizeOf_lt_of_mem_children c.2

/-- An expression is placed by its first span, and its children by those that follow. -/
theorem place_eq (e : Expr) (spans : List Span) :
    e.place spans =
      (((e.withSpan (spans.headD .synthetic)).withChildren
          (threadEach place e.children spans.tail).1),
        (threadEach place e.children spans.tail).2) := by
  have h := threadEach_map place Subtype.val e.children.attach spans.tail
  rw [List.attach_map_subtype_val] at h
  rw [place, h]

end Expr

namespace VarDecl

/-- The declaration with spans from the front of a list, and the spans left over. -/
def place (d : VarDecl) (spans : List Span) : VarDecl × List Span :=
  let (children, rest) := threadEach Expr.place d.children spans
  (d.withChildren children, rest)

end VarDecl

namespace Stmt

/-- The statement with spans from the front of a list, and the spans left over. -/
def place (s : Stmt) (spans : List Span) : Stmt × List Span :=
  let (parts, rest) :=
    threadEach
      (fun
        | ⟨.expr e, _⟩, spans =>
          let (e, rest) := e.place spans
          (StmtPart.expr e, rest)
        | ⟨.stmt c, _⟩, spans =>
          let (c, rest) := place c spans
          (StmtPart.stmt c, rest))
      s.children.attach spans.tail
  ((s.withSpan (spans.headD .synthetic)).withParts (StmtPart.exprs parts) (StmtPart.stmts parts),
    rest)
termination_by sizeOf s
decreasing_by exact sizeOf_lt_of_mem_children ‹_›

end Stmt

namespace Import

/-- The import with the first span of a list, and the spans left over. -/
def place (i : Import) (spans : List Span) : Import × List Span :=
  ({ i with span := spans.headD .synthetic }, spans.tail)

end Import

namespace MethodDecl

/-- The method with spans from the front of a list, and the spans left over. -/
def place (m : MethodDecl) (spans : List Span) : MethodDecl × List Span :=
  let (returnType, rest) := m.returnType.place spans.tail
  let (params, rest) := threadEach VarDecl.place m.params rest
  let (body, rest) := m.body.place rest
  ({ m with span := spans.headD .synthetic, returnType, params, body }, rest)

end MethodDecl

namespace TypeDecl

/-- The class with spans from the front of a list, and the spans left over. -/
def place (t : TypeDecl) (spans : List Span) : TypeDecl × List Span :=
  let (fields, rest) := threadEach VarDecl.place t.fields spans.tail
  let (methods, rest) := threadEach MethodDecl.place t.methods rest
  ({ t with span := spans.headD .synthetic, fields, methods }, rest)

end TypeDecl

end JavaRefactor
