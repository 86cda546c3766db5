import JavaRefactor.Layout.Basic
import JavaRefactor.Tree.Expr

/-!
# Layout of expressions

How an expression is written.  Given a source text, a node whose span is not empty is
copied from there byte for byte; every other node is printed from its parts.  A part is
put into parentheses when it binds more loosely than its place admits.
-/

namespace JavaRefactor

/-- The text that a node with some span has in the source. -/
def sourceText? (source : Option String) (span : Span) : Option String :=
  if span.isEmpty then none else source.bind span.slice?

/-- The layout of a node: its source text if it has any, else its printed parts. -/
def captureOr (source : Option String) (span : Span) (parts : List Layout) : Layout :=
  match sourceText? source span with
  | some text => .node [.text text]
  | none => .node parts

/-- A laid-out expression at a place that admits binding levels up to `level`. -/
def encloseAt (level : Nat) (e : Expr) (inner : Layout) : List Layout :=
  if level < e.precedence then [.text "(", inner, .text ")"] else [inner]

/-- The space that keeps the token of an operator apart from its operand: two equal signs
in a row would read as another operator. -/
def signGap (op : UnaryOperator) : Expr → List Layout
  | .unary _ inner _ =>
    if op.sign?.isSome && op.sign? == inner.sign? then [.text " "] else []
  | _ => []

namespace Expr

mutual

/-- The layout of an expression. -/
def layout (source : Option String) : Expr → Layout
  | literal i value => captureOr source i.span [.text value.text]
  | ident i name _ => captureOr source i.span [.text name]
  | select i receiver name _ =>
    captureOr source i.span
      (encloseAt 0 receiver (layout source receiver) ++ [.text ".", .text name])
  | this i => captureOr source i.span [.text "this"]
  | super i => captureOr source i.span [.text "super"]
  | binary i op left right =>
    captureOr source i.span
      (encloseAt op.precedence left (layout source left)
        ++ [.text (" " ++ op.token ++ " ")]
        ++ encloseAt (op.precedence - 1) right (layout source right))
  | unary i op operand =>
    captureOr source i.span
      (if op.followsOperand then
        encloseAt op.precedence operand (layout source operand) ++ [.text op.token]
      else
        .text op.token :: signGap op operand
          ++ encloseAt op.precedence operand (layout source operand))
  | assign i target value =>
    captureOr source i.span
      (encloseAt 1 target (layout source target) ++ [.text " = "]
        ++ encloseAt assignLevel value (layout source value))
  | compoundAssign i op target value =>
    captureOr source i.span
      (encloseAt 1 target (layout source target) ++ [.text (" " ++ op.token ++ "= ")]
        ++ encloseAt assignLevel value (layout source value))
  | conditional i cond yes no =>
    captureOr source i.span
      (encloseAt (conditionalLevel - 1) cond (layout source cond) ++ [.text " ? "]
        ++ encloseAt conditionalLevel yes (layout source yes) ++ [.text " : "]
        ++ encloseAt conditionalLevel no (layout source no))
  | cast i type operand =>
    captureOr source i.span
      ([.text "(", layout source type, .text ") "]
        ++ encloseAt 2 operand (layout source operand))
  | instanceOf i operand type =>
    captureOr source i.span
      (encloseAt 6 operand (layout source operand)
        ++ [.text " instanceof ", layout source type])
  | call i callee args =>
    captureOr source i.span
      (encloseAt 0 callee (layout source callee)
        ++ Layout.within "(" ")" (Layout.separated ", " (layoutArgs source args)))
  | index i array position =>
    captureOr source i.span
      (encloseAt 0 array (layout source array)
        ++ [.text "[", layout source position, .text "]"])
  | newArray i none dims init =>
    captureOr source i.span
      (layoutDims source dims ++ layoutInit source "" init)
  | newArray i (some element) dims init =>
    captureOr source i.span
      ([.text "new ", layout source element] ++ layoutDims source dims
        ++ layoutInit source (if dims.isEmpty then "[] " else " ") init)
  | newObject i type args =>
    captureOr source i.span
      ([.text "new ", layout source type]
        ++ Layout.within "(" ")" (Layout.separated ", " (layoutArgs source args)))
  | paren i inner =>
    captureOr source i.span [.text "(", layout source inner, .text ")"]
  | primitiveType i kind => captureOr source i.span [.text kind.keyword]
  | typeApply i base args =>
    captureOr source i.span
      (layout source base
        :: Layout.within "<" ">" (Layout.separated ", " (layoutArgs source args)))
  | arrayType i element =>
    captureOr source i.span [layout source element, .text "[]"]

/-- The layouts of the expressions of a list, each at a place that takes any. -/
def layoutArgs (source : Option String) : List Expr → List (List Layout)
  | [] => []
  | e :: es => encloseAt assignLevel e (layout source e) :: layoutArgs source es

/-- The dimensions of an array creation, each in brackets. -/
def layoutDims (source : Option String) : List Expr → List Layout
  | [] => []
  | e :: es => [.text "[", layout source e, .text "]"] ++ layoutDims source es

/-- The initializer of an array creation after some leading text, if there is one. -/
def layoutInit (source : Option String) (lead : String) : Option (List Expr) → List Layout
  | none => []
  | some es =>
    .text lead :: Layout.within "\x7b" "\x7d" (Layout.separated ", " (layoutArgs source es))

end

/-- The text of an expression printed from its parts throughout. -/
def print (e : Expr) : String := (e.layout none).toText

/-- The text of an expression in which nodes with a span are copied from the source. -/
def render (source : String) (e : Expr) : String := (e.layout (some source)).toText

/-- The rendered text for a place that admits binding levels up to `level`. -/
def renderAt (source : String) (level : Nat) (e : Expr) : String :=
  Layout.textOf (encloseAt level e (e.layout (some source)))

end Expr

end JavaRefactor
