import JavaRefactor.Proofs.Expansion.Copies
import JavaRefactor.Proofs.Token.Replacement

/-!
# Rendering what a unit holds

New code mixes nodes of a unit, which it copies with their spans, and synthesized nodes.  In a
laid-out unit the source under a node is the node as it is printed, so rendering the mixture
gives the text that printing it gives, and parentheses are put where the tree needs them,
whatever is copied (`CompilationUnit.ofDeclarations_render`).
-/

namespace JavaRefactor

open Layout

/-- Every node with a span is one of the unit; the other nodes are synthesized. -/
def Expr.CopiesFrom (u : CompilationUnit) (e : Expr) : Prop :=
  ∀ x ∈ e.nodes, x.span.isEmpty = false → SyntaxNode.expr x ∈ u.nodes

namespace Expr.CopiesFrom

variable {u : CompilationUnit} {e : Expr}

/-- A synthesized node may have any children that copy from the unit. -/
theorem synthesized (span : e.span.isEmpty = true) (children : ∀ c ∈ e.children, c.CopiesFrom u) :
    e.CopiesFrom u := by
  refine Expr.all_iff.mpr ⟨?_, children⟩
  intro copied
  rw [span] at copied
  cases copied

/-- An expression of the unit is copied with all nodes inside it. -/
theorem of_mem (h : SyntaxNode.expr e ∈ u.nodes) : e.CopiesFrom u := by
  intro x hx _
  exact CompilationUnit.nodes_trans h (List.mem_map_of_mem hx)

end Expr.CopiesFrom

namespace CompilationUnit

/-- Copies of nodes of a laid-out unit are what the source says under them. -/
theorem LaidOut.trueTo {u : CompilationUnit} (h : u.LaidOut)
    (small : u.source.utf8ByteSize < Span.maxOffset) {e : Expr} (copies : e.CopiesFrom u) :
    e.All (Expr.TrueTo u.source) := by
  intro x hx
  cases synthesized : x.span.isEmpty with
  | true => exact .inl synthesized
  | false =>
    obtain ⟨start, l, laid, text⟩ := h.exists_place_of_mem_nodes (copies x hx synthesized)
    exact .inr (laid.slice?_eq text small)

/-- Rendering agrees with printing: an expression whose nodes are copied from a laid-out unit or
synthesized is rendered as it is printed, at a place of any level in parentheses exactly if it
binds more loosely. -/
theorem ofDeclarations_render (package : Option String) (imports : List Import)
    (types : List TypeDecl) (symbols : SymbolTable)
    (small : (textOf (layoutUnit package imports types)).utf8ByteSize < Span.maxOffset)
    (e : Expr) (copies : e.CopiesFrom (ofDeclarations package imports types symbols)) :
    let u := ofDeclarations package imports types symbols
    e.render u.source = e.print ∧
      ∀ level, e.renderAt u.source level
        = if level < e.precedence then "(" ++ e.print ++ ")" else e.print := by
  intro u
  obtain ⟨laidOut, -, -⟩ := ofDeclarations_laidOut package imports types symbols
  have faithful : e.All (Expr.TrueTo u.source) := laidOut.trueTo small copies
  refine ⟨faithful.toText_layout, fun level => ?_⟩
  rw [faithful.renderAt level, Expr.textOf_encloseAt, String.append_assoc]

/-- A class with the field `private int x = a - b;`. -/
private def differenceClass : TypeDecl where
  name := "A"
  fields := [⟨"x", .primitiveType (.ofType (.primitive .int)) .int,
    some (.binary (.ofType (.primitive .int)) .sub
      (.ident (.ofType (.primitive .int)) "a" none) (.ident (.ofType (.primitive .int)) "b" none)),
    none, false⟩]
  methods := []
  span := .synthetic

/-- The initializer of the field with its places in the source. -/
private def difference : Expr :=
  .binary ⟨.primitive .int, ⟨37, 42⟩⟩ .sub
    (.ident ⟨.primitive .int, ⟨37, 38⟩⟩ "a" none) (.ident ⟨.primitive .int, ⟨41, 42⟩⟩ "b" none)

/-- The product `2 * (a - b)` of a synthesized literal and the initializer. -/
private def product : Expr :=
  .binary (.ofType (.primitive .int)) .mul (.literal (.ofType (.primitive .int)) (.int 2))
    difference

/-- The product of the example is a copy. -/
private theorem copiesFrom_product :
    product.CopiesFrom (ofDeclarations none [] [differenceClass] .empty) := by
  have recorded : nodeSpansOf 0 (layoutUnit none [] [differenceClass])
      = [⟨0, 45⟩, ⟨29, 32⟩, ⟨37, 42⟩, ⟨37, 38⟩, ⟨41, 42⟩] := by
    decide +kernel
  have placed : (ofDeclarations none [] [differenceClass] .empty).types =
      [{ differenceClass with
        fields := [⟨"x", .primitiveType ⟨.primitive .int, ⟨29, 32⟩⟩ .int, some difference, none,
          false⟩],
        span := ⟨0, 45⟩ }] := by
    change (threadEach TypeDecl.place [differenceClass]
      (nodeSpansOf 0 (layoutUnit none [] [differenceClass]))).1 = _
    rw [recorded]
    simp [differenceClass, difference, threadEach, TypeDecl.place, VarDecl.place,
      VarDecl.children, VarDecl.withChildren, Expr.place_eq, Expr.children, Expr.withChildren,
      Expr.withSpan, Expr.withInfo, Expr.type, Expr.info, NodeInfo.ofType]
  have copied : SyntaxNode.expr difference ∈
      (ofDeclarations none [] [differenceClass] .empty).nodes := by
    rw [nodes, placed]
    simp [TypeDecl.nodes, VarDecl.children, Expr.nodes_eq difference]
  refine .synthesized rfl ?_
  intro c hc
  rcases List.mem_pair.mp hc with rfl | rfl
  · exact .synthesized rfl fun c hc => absurd hc List.not_mem_nil
  · exact .of_mem copied

/-- The product is rendered as it is printed, with the parentheses around its copied factor. -/
theorem ofDeclarations_render_product :
    let u := ofDeclarations none [] [differenceClass] .empty
    (textOf (layoutUnit none [] [differenceClass])).utf8ByteSize < Span.maxOffset ∧
      product.CopiesFrom u ∧ product.render u.source = "2 * (a - b)" ∧
      product.renderAt u.source 2 = "(2 * (a - b))" := by
  have small : (textOf (layoutUnit none [] [differenceClass])).utf8ByteSize < Span.maxOffset := by
    decide +kernel
  have printed : product.print = "2 * (a - b)" := by decide +kernel
  obtain ⟨rendered, enclosed⟩ :=
    ofDeclarations_render none [] [differenceClass] .empty small product copiesFrom_product
  refine ⟨small, copiesFrom_product, rendered.trans printed, ?_⟩
  rw [enclosed 2, printed]
  decide +kernel

end CompilationUnit

end JavaRefactor
