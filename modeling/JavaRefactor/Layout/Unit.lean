import JavaRefactor.Layout.Stmt
import JavaRefactor.Unit.Declaration

/-!
# Layout of a compilation unit

A source file is written as its package declaration, its imports and its classes, with a
blank line between each two groups and between each two classes.  The package, each import,
each class and each method is a node of the layout, like the statements and expressions
inside it.
-/

namespace JavaRefactor

namespace Indent

/-- The indentation of the classes of a file. -/
def outermost : Indent := ⟨"", 0⟩

end Indent

/-- The layout of an import line, without its line break. -/
def Import.layout (i : Import) : Layout :=
  .node [.text (if i.isStatic then "import static " else "import "), .text i.path, .text ";"]

/-- The layout of a method at some indentation. -/
def MethodDecl.layout (ind : Indent) (m : MethodDecl) : Layout :=
  .node
    (.text "public "
      :: (if m.isStatic then [.text "static "] else [])
      ++ (if m.typeParams.isEmpty then []
          else [.text ("<" ++ ", ".intercalate m.typeParams ++ "> ")])
      ++ [m.returnType.layout none, .text " ", .text m.name]
      ++ Layout.within "(" ") " (Layout.separated ", " (m.params.map (VarDecl.layout none)))
      ++ m.body.layout none ind false)

/-- The layout of a class: fields first, then methods, a blank line before every method
that is not the first member. -/
def TypeDecl.layout (t : TypeDecl) : Layout :=
  let inner := Indent.outermost.deeper
  let fields := t.fields.flatMap fun f =>
    .text inner.newline :: .text "private " :: f.layout none ++ [.text ";"]
  let methods := t.methods.mapIdx fun i m =>
    (if 0 < i ∨ !t.fields.isEmpty then [.text "\n"] else [])
      ++ [.text inner.newline, m.layout inner]
  .node
    ([.text "public class ", .text t.name, .text " \x7b"] ++ fields ++ methods.flatten
      ++ [.text Indent.outermost.newline, .text "\x7d"])

/-- The layout of a whole file. -/
def layoutUnit (package : Option String) (imports : List Import) (types : List TypeDecl) :
    List Layout :=
  (match package with
    | some name => [.node [.text "package ", .text name, .text ";"], .text "\n\n"]
    | none => [])
    ++ imports.flatMap (fun i => [i.layout, .text "\n"])
    ++ (if imports.isEmpty then [] else [.text "\n"])
    ++ Layout.separated "\n" (types.map fun t => [t.layout, .text "\n"])
    ++ (if package.isNone ∧ imports.isEmpty ∧ types.isEmpty then [.text "\n"] else [])

end JavaRefactor
