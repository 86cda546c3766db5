import JavaRefactor.Layout.Unit
import JavaRefactor.Unit.Placement

/-!
# Compilation units

A compilation unit is one source file: its declarations, its symbols, and the text as which
the declarations are laid out.  Building a unit lays the declarations out and places them in
that text, so every span of the unit refers to its own source.
-/

namespace JavaRefactor

/-- A laid-out source file. -/
structure CompilationUnit where
  package : Option String
  packageSpan : Span
  imports : List Import
  types : List TypeDecl
  symbols : SymbolTable
  source : String
  /-- The spans of the comments in the source. -/
  comments : List Span

namespace CompilationUnit

/-- Lay out declarations and place them in the resulting text.  Spans that the declarations
carry already are replaced. -/
def ofDeclarations (package : Option String) (imports : List Import) (types : List TypeDecl)
    (symbols : SymbolTable) : CompilationUnit :=
  let layout := layoutUnit package imports types
  let spans := Layout.nodeSpansOf 0 layout
  let (packageSpan, spans) :=
    if package.isSome then (spans.headD .synthetic, spans.tail) else (.synthetic, spans)
  let (imports, spans) := threadEach Import.place imports spans
  let (types, _) := threadEach TypeDecl.place types spans
  { package, packageSpan, imports, types, symbols
    source := Layout.textOf layout
    comments := Layout.commentSpansOf 0 layout }

/-- A symbol of the unit. -/
def symbol? (u : CompilationUnit) (id : SymbolId) : Option Symbol := u.symbols.get? id

/-- The qualified name of a class of the unit. -/
def qualifiedName (u : CompilationUnit) (t : TypeDecl) : String :=
  match u.package with
  | some package => package ++ "." ++ t.name
  | none => t.name

/-! ### The trees of a unit

Fields come before methods; of a method only the body counts. -/

/-- The expressions of the fields and method bodies, each before its children. -/
def exprs (u : CompilationUnit) : List Expr :=
  u.types.flatMap fun t =>
    t.fields.flatMap (fun f => f.children.flatMap Expr.nodes)
      ++ t.methods.flatMap fun m => m.body.exprs

/-- The statements of the method bodies, each before its parts. -/
def stmts (u : CompilationUnit) : List Stmt :=
  u.types.flatMap fun t => t.methods.flatMap fun m => m.body.stmts

/-! ### Text -/

/-- Whether a comment lies within a span. -/
def hasCommentWithin (u : CompilationUnit) (span : Span) : Bool :=
  u.comments.any span.contains

/-- Whether a character indents a line. -/
def isIndentation (c : Char) : Bool := c == ' ' || c == '\t'

/-- The indentation of the line that contains a byte offset. -/
def lineIndent (u : CompilationUnit) (offset : Nat) : String :=
  let cs := u.source.toList
  let lineStart := ((Text.takeBytes offset cs).reverse.takeWhile (· != '\n')).reverse
  String.ofList ((lineStart ++ Text.dropBytes offset cs).takeWhile isIndentation)

/-! ### Imports and declared names -/

/-- The first import of a class whose simple name is given. -/
def classImport? (u : CompilationUnit) (simple : String) : Option Import :=
  u.imports.find? fun i => !i.isStatic && i.simpleName == simple

/-- The first import of a static member whose name is given. -/
def staticImport? (u : CompilationUnit) (simple : String) : Option Import :=
  u.imports.find? fun i => i.isStatic && i.simpleName == simple

/-- Whether the unit has an import of exactly this path. -/
def hasImport (u : CompilationUnit) (path : String) (isStatic : Bool) : Bool :=
  u.imports.any fun i => i.isStatic == isStatic && i.path == path

/-- Whether the unit declares a class of this simple name. -/
def declaresType (u : CompilationUnit) (simple : String) : Bool :=
  u.types.any fun t => t.name == simple

/-- Where new import lines go, and the text that must stand before them: after the last
import, else after the package declaration, else at the top of the file. -/
def importInsertionPoint (u : CompilationUnit) : Nat × String :=
  match u.imports.getLast? with
  | some last => (last.span.stop, "\n")
  | none => if u.package.isSome then (u.packageSpan.stop, "\n\n") else (0, "")

end CompilationUnit

end JavaRefactor
