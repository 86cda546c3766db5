import JavaRefactor.Layout.Expr
import JavaRefactor.Tree.Stmt

/-!
# Layout of statements

How statements are written: blocks start on the line of the statement that they belong to,
any other nested statement goes on a line of its own, one step further in.
-/

namespace JavaRefactor

/-- The indentation of a line: what every line starts with, and the nesting depth. -/
structure Indent where
  base : String
  depth : Nat

namespace Indent

/-- What one level of nesting adds. -/
def step : String := "    "

/-- One level further in. -/
def deeper (ind : Indent) : Indent := ⟨ind.base, ind.depth + 1⟩

/-- A line break with the indentation of the next line. -/
def newline (ind : Indent) : String :=
  "\n" ++ ind.base ++ String.join (List.replicate ind.depth step)

/-- The indentation of the body of a statement. -/
def ofBody (ind : Indent) (body : Stmt) : Indent := if body.isBlock then ind else ind.deeper

/-- What stands before the body of a statement. -/
def beforeBody (ind : Indent) (body : Stmt) : String :=
  if body.isBlock then " " else ind.deeper.newline

end Indent

/-- The layout of a declaration. -/
def VarDecl.layout (source : Option String) (d : VarDecl) : List Layout :=
  (if d.isFinal then [.text "final "] else [])
    ++ [d.type.layout source, .text " ", .text d.name]
    ++ match d.init with
       | some init => .text " = " :: encloseAt Expr.assignLevel init (init.layout source)
       | none => []

namespace Stmt

/-- The comments above a statement, each on a line of its own. -/
def layoutComments (ind : Indent) (comments : List String) : List Layout :=
  comments.flatMap fun c => [.comment ("// " ++ c), .text ind.newline]

/-- A statement with the comments above it: its source text if it has any, which leaves the
comments out, else comments and parts. -/
def captureOrPrint (source : Option String) (info : StmtInfo) (ind : Indent) (inHeader : Bool)
    (parts : List Layout) : List Layout :=
  match sourceText? source info.span with
  | some text => [.node [.text text]]
  | none =>
    if inHeader then [.node parts] else layoutComments ind info.comments ++ [.node parts]

/-- The end of a simple statement: in the header of a loop it has no semicolon. -/
def terminator (inHeader : Bool) : List Layout := if inHeader then [] else [.text ";"]

mutual

/-- The layout of a statement.  In the header of a loop it comes without comments. -/
def layout (source : Option String) (ind : Indent) (inHeader : Bool) : Stmt → List Layout
  | block i [] => captureOrPrint source i ind inHeader [.text "\x7b\x7d"]
  | block i (s :: ss) =>
    captureOrPrint source i ind inHeader
      (.text "\x7b" :: layoutLines source ind.deeper (s :: ss)
        ++ [.text ind.newline, .text "\x7d"])
  | ifElse i cond yes none =>
    captureOrPrint source i ind inHeader
      ([.text "if (", cond.layout source, .text ")", .text (ind.beforeBody yes)]
        ++ layout source (ind.ofBody yes) false yes)
  | ifElse i cond yes (some no) =>
    captureOrPrint source i ind inHeader
      ([.text "if (", cond.layout source, .text ")", .text (ind.beforeBody yes)]
        ++ layout source (ind.ofBody yes) false yes
        ++ [.text (if yes.isBlock then " else" else ind.newline ++ "else"),
            .text (if no.isIf then " " else ind.beforeBody no)]
        ++ layout source (if no.isIf then ind else ind.ofBody no) false no)
  | whileLoop i cond body =>
    captureOrPrint source i ind inHeader
      ([.text "while (", cond.layout source, .text ")", .text (ind.beforeBody body)]
        ++ layout source (ind.ofBody body) false body)
  | doLoop i body cond =>
    captureOrPrint source i ind inHeader
      ([.text "do", .text (ind.beforeBody body)]
        ++ layout source (ind.ofBody body) false body
        ++ [.text (if body.isBlock then " " else ind.newline),
            .text "while (", cond.layout source, .text ");"])
  | forLoop i init cond update body =>
    captureOrPrint source i ind inHeader
      ([.text "for ("] ++ Layout.separated ", " (layoutHeader source ind init) ++ [.text ";"]
        ++ (match cond with
            | some cond => [.text " ", cond.layout source]
            | none => [])
        ++ [.text ";"]
        ++ (if update.isEmpty then []
            else .text " " :: Layout.separated ", " (Expr.layoutArgs source update))
        ++ [.text ")", .text (ind.beforeBody body)]
        ++ layout source (ind.ofBody body) false body)
  | forEach i var iterable body =>
    captureOrPrint source i ind inHeader
      ([.text "for ("] ++ var.layout source
        ++ [.text " : ", iterable.layout source, .text ")", .text (ind.beforeBody body)]
        ++ layout source (ind.ofBody body) false body)
  | ret i none => captureOrPrint source i ind inHeader [.text "return", .text ";"]
  | ret i (some value) =>
    captureOrPrint source i ind inHeader
      [.text "return", .text " ", value.layout source, .text ";"]
  | raise i value =>
    captureOrPrint source i ind inHeader [.text "throw ", value.layout source, .text ";"]
  | synchronized i lock body =>
    captureOrPrint source i ind inHeader
      ([.text "synchronized (", lock.layout source, .text ")", .text (ind.beforeBody body)]
        ++ layout source (ind.ofBody body) false body)
  | expr i value =>
    captureOrPrint source i ind inHeader (value.layout source :: terminator inHeader)
  | empty i => captureOrPrint source i ind inHeader [.text ";"]
  | declare i decl =>
    captureOrPrint source i ind inHeader (decl.layout source ++ terminator inHeader)

/-- Statements on a line of their own each. -/
def layoutLines (source : Option String) (ind : Indent) : List Stmt → List Layout
  | [] => []
  | s :: ss => .text ind.newline :: layout source ind false s ++ layoutLines source ind ss

/-- The statements in the header of a loop. -/
def layoutHeader (source : Option String) (ind : Indent) : List Stmt → List (List Layout)
  | [] => []
  | s :: ss => layout source ind true s :: layoutHeader source ind ss

end

/-- The text of a sequence of statements, one to a line, in which nodes with a span are
copied from the source.  Lines after the first start with `indent`. -/
def renderAll (source indent : String) (stmts : List Stmt) : String :=
  let ind : Indent := ⟨indent, 0⟩
  Layout.textOf
    (Layout.separated ind.newline (stmts.map fun s => s.layout (some source) ind false))

end Stmt

end JavaRefactor
