import JavaRefactor.Proofs.Expansion.Ensures
import JavaRefactor.Proofs.Layout.Pieces
import JavaRefactor.Proofs.Matching.Sources

/-!
# What new code copies

An expansion copies what variables stand for, and all other nodes of new code are synthesized.
So a property of all synthesized nodes and of all nodes that the bindings hold is one of all
nodes of the new code (`ExprPattern.expand_ensures`).  The property that matters is that a node
with a span has its own text there: then copying it from the source is the same as printing it
(`Expr.All.toText_layout`).
-/

namespace JavaRefactor

open Layout

/-- A node is synthesized, or the source under it is the node. -/
def Expr.TrueTo (source : String) (e : Expr) : Prop :=
  e.span.isEmpty = true ∨ e.span.slice? source = some e.print

/-- If the source under the nodes of an expression is what they are, then copying them gives the
same text as printing them. -/
theorem Expr.All.toText_layout {source : String} {e : Expr} (h : e.All (Expr.TrueTo source)) :
    (e.layout (some source)).toText = e.print := by
  induction e using Expr.induction with
  | step e ih =>
    have inside : textOf (Piece.fill (ExprPlace.layout (some source)) e.pieces e.children)
        = textOf (Piece.fill (ExprPlace.layout none) e.pieces e.children) := by
      refine Piece.textOf_fill_congr ?_
      intro c hc q
      rw [ExprPlace.layout_eq, ExprPlace.layout_eq, textOf_append, textOf_append, textOf, textOf,
        ih c hc (h.child hc)]
      rfl
    have printed : e.print
        = textOf (Piece.fill (ExprPlace.layout none) e.pieces e.children) := by
      rw [print, layout_eq, captureOr_none, toText]
    rw [layout_eq, captureOr, sourceText?]
    by_cases empty : e.span.isEmpty
    · rw [if_pos empty, toText, inside, printed]
    · have copied : e.span.slice? source = some e.print :=
        (Expr.all_iff.mp h).1.resolve_left empty
      rw [if_neg empty, Option.bind_some, copied]
      exact String.append_empty

/-- What is true to the source is copied as it would be printed. -/
theorem Expr.All.renderAt {source : String} {e : Expr} (h : e.All (Expr.TrueTo source))
    (level : Nat) : e.renderAt source level = textOf (encloseAt level e (e.layout none)) := by
  rw [Expr.renderAt, encloseAt, encloseAt]
  split
  · rw [textOf, textOf, textOf, textOf, textOf, textOf, h.toText_layout]
    rfl
  · rw [textOf, textOf, textOf, textOf, h.toText_layout]
    rfl

/-! ### New code -/

/-- All nodes of a list of expressions have a property. -/
def Expr.AllOf (P : Expr → Prop) (es : List Expr) : Prop := ∀ e ∈ es, e.All P

namespace Expr.AllOf

variable {P : Expr → Prop} {e : Expr} {es es' : List Expr}

/-- There is no node in an empty list. -/
theorem nil : AllOf P [] := fun _ h => absurd h List.not_mem_nil

/-- The nodes of a list are those of its first expression and of the others. -/
theorem cons (h : e.All P) (hs : AllOf P es) : AllOf P (e :: es) := by
  intro x hx
  rcases List.mem_cons.mp hx with rfl | hx
  · exact h
  · exact hs x hx

/-- The nodes of two lists side by side are those of both. -/
theorem append (h : AllOf P es) (h' : AllOf P es') : AllOf P (es ++ es') := by
  intro x hx
  rcases List.mem_append.mp hx with hx | hx
  · exact h x hx
  · exact h' x hx

end Expr.AllOf

/-- Synthesized nodes have a property, and so do all nodes that the bindings hold. -/
structure ExpansionContext.Carries (c : ExpansionContext) (P : Expr → Prop) : Prop where
  new : ∀ e : Expr, e.span.isEmpty = true → P e
  bound : c.bindings.All P

namespace ExpansionContext.Carries

variable {c : ExpansionContext} {P : Expr → Prop}

/-- All nodes of a synthesized expression have the property if those of its children have. -/
theorem synthesized (h : c.Carries P) {e : Expr} (span : e.span.isEmpty = true)
    (children : Expr.AllOf P e.children) : e.All P :=
  Expr.all_iff.mpr ⟨h.new e span, children⟩

/-- So have those of a qualified name. -/
theorem qualifiedName (h : c.Carries P) (name : String) (type : JavaType) :
    (Expr.qualifiedName name type).All P := by
  have typed {e : Expr} (he : e.All P) (span : e.span.isEmpty = true) :
      (e.withType type).All P := by
    refine h.synthesized ?_ ?_
    · rw [Expr.withType, Expr.span, Expr.info_withInfo]
      exact span
    · intro c hc
      rw [Expr.withType, Expr.children_withInfo] at hc
      exact he.child hc
  have chain (parts : List String) (e : Expr) (he : e.All P) (span : e.span.isEmpty = true) :
      (parts.foldl (fun receiver part => Expr.select (.ofType .unknown) receiver part none) e).All P
        ∧ (parts.foldl (fun receiver part => Expr.select (.ofType .unknown) receiver part none)
          e).span.isEmpty = true := by
    induction parts generalizing e with
    | nil => exact ⟨he, span⟩
    | cons part parts ih => exact ih _ (h.synthesized rfl (.cons he .nil)) rfl
  have leaf (name : String) : (Expr.ident (.ofType .unknown) name none).All P :=
    h.synthesized rfl .nil
  rw [Expr.qualifiedName]
  split
  · exact typed (leaf "") rfl
  · rename_i first rest _
    obtain ⟨all, span⟩ := chain rest _ (leaf first) rfl
    exact typed all span

/-- So have those of a reference to a class. -/
theorem classReference (h : c.Carries P) (name : String) :
    (c.classReference name).Ensures (Expr.All P) :=
  .bind (.trivial _) fun _ _ => .pure (h.qualifiedName _ _)

/-- So have those of a reference to a static member. -/
theorem staticReference (h : c.Carries P) (owner member : String) (type : JavaType) :
    (c.staticReference owner member type).Ensures (Expr.All P) := by
  have selected : Importing.Ensures (do
      let receiver ← c.policy.classReference c.unit (Dotted.topLevelClass owner) owner
      return Expr.select (.ofType type) receiver member none) (Expr.All P) :=
    .bind (h.classReference owner) fun receiver hr => .pure (h.synthesized rfl (.cons hr .nil))
  unfold ExpansionContext.staticReference ImportPolicy.staticReference
  split
  · refine .bind (.trivial _) ?_
    intro imported _
    split
    · exact .pure (h.synthesized rfl .nil)
    · exact selected
  · exact selected

mutual

/-- So have those of the syntax of a type. -/
theorem typeSyntax (h : c.Carries P) : (type : JavaType) →
    (c.typeSyntax type).Ensures (Expr.All P)
  | .primitive _ => .pure (h.synthesized rfl .nil)
  | .declared name [] => by
    rw [ExpansionContext.typeSyntax]
    exact h.classReference name
  | .declared name (arg :: args) => by
    rw [ExpansionContext.typeSyntax]
    exact .bind (h.classReference name) fun base hbase =>
      .bind (typeSyntax h arg) fun first hfirst =>
        .bind (typeSyntaxEach h args) fun others hothers =>
          .pure (h.synthesized rfl (.cons hbase (.cons hfirst hothers)))
  | .array element => by
    rw [ExpansionContext.typeSyntax]
    exact .bind (typeSyntax h element) fun e he => .pure (h.synthesized rfl (.cons he .nil))
  | .wildcard _ none => .pure (h.synthesized rfl .nil)
  | .wildcard _ (some bound) => by
    rw [ExpansionContext.typeSyntax]
    exact .bind (.trivial _) fun _ _ => .pure (h.synthesized rfl .nil)
  | .var .. => .pure (h.synthesized rfl .nil)
  | .method .. => .pure (h.synthesized rfl .nil)
  | .generic .. => .pure (h.synthesized rfl .nil)
  | .unknown => .pure (h.synthesized rfl .nil)

theorem typeSyntaxEach (h : c.Carries P) : (types : List JavaType) →
    (c.typeSyntaxEach types).Ensures (Expr.AllOf P)
  | [] => .pure .nil
  | type :: types => by
    rw [ExpansionContext.typeSyntaxEach]
    exact .bind (typeSyntax h type) fun first hfirst =>
      .bind (typeSyntaxEach h types) fun others hothers => .pure (.cons hfirst hothers)

end

/-- So have those of what a variable for one expression stands for. -/
theorem freeNamed (h : c.Carries P) (name : String) : (c.freeNamed name).Ensures (Expr.All P) := by
  unfold ExpansionContext.freeNamed
  split
  · rename_i e found
    exact .pure (h.bound.free name e found)
  · exact .throw _

/-- So have those of what a variable for several expressions stands for. -/
theorem repeatedNamed (h : c.Carries P) (name : String) :
    (c.repeatedNamed name).Ensures (Expr.AllOf P) := by
  unfold ExpansionContext.repeatedNamed
  split
  · rename_i es found
    exact .pure (h.bound.repeated name es found)
  · exact .throw _

/-- So have those of the name of a local. -/
theorem localNamed (h : c.Carries P) (name : String) : (c.localNamed name).All P := by
  unfold ExpansionContext.localNamed
  split
  · exact h.synthesized rfl .nil
  · exact h.synthesized rfl .nil

/-- So have those of what a type variable is written as. -/
theorem typeVarNamed (h : c.Carries P) (name : String) :
    (c.typeVarNamed name).Ensures (Expr.All P) := by
  unfold ExpansionContext.typeVarNamed
  split
  · rename_i type witness found
    exact .pure (h.bound.types name type witness found)
  · exact h.typeSyntax _
  · exact .pure (h.synthesized rfl .nil)

/-- So have those of a member selection, if those of its receiver have. -/
theorem selectFrom (h : c.Carries P) {receiver : Expr} (hr : receiver.All P) (name : String)
    (type : JavaType) : (receiver.selectFrom name type).All P := by
  unfold Expr.selectFrom
  split
  · exact h.synthesized rfl .nil
  · exact h.synthesized rfl (.cons hr .nil)

end ExpansionContext.Carries

namespace ExprPattern

variable {c : ExpansionContext} {P : Expr → Prop}

mutual

/-- All nodes of new code have a property that synthesized nodes have and nodes of what the
variables stand for. -/
theorem expand_ensures (h : c.Carries P) : (p : ExprPattern) → (p.expand c).Ensures (Expr.All P)
  | .literal _ => .pure (h.synthesized rfl .nil)
  | .free name => by
    rw [expand]
    exact h.freeNamed name
  | .localVar name => .pure (h.localNamed name)
  | .typeVar name => by
    rw [expand]
    exact (h.typeVarNamed name).lift
  | .classRef name => by
    rw [expand]
    exact (h.classReference name).lift
  | .staticRef owner member _ => by
    rw [expand]
    exact .bind (.trivial _) fun type _ => (h.staticReference owner member type).lift
  | .binary _ l r | .assign l r | .compoundAssign _ l r | .cast l r | .instanceOf l r
  | .index l r => by
    rw [expand]
    exact .bind (expand_ensures h l) fun a ha => .bind (expand_ensures h r) fun b hb =>
      .pure (h.synthesized rfl (.cons ha (.cons hb .nil)))
  | .unary _ p | .paren p | .arrayType p => by
    rw [expand]
    exact .bind (expand_ensures h p) fun a ha => .pure (h.synthesized rfl (.cons ha .nil))
  | .conditional p q r => by
    rw [expand]
    exact .bind (expand_ensures h p) fun a ha => .bind (expand_ensures h q) fun b hb =>
      .bind (expand_ensures h r) fun d hd =>
        .pure (h.synthesized rfl (.cons ha (.cons hb (.cons hd .nil))))
  | .call p ps | .newObject p ps => by
    rw [expand]
    exact .bind (expand_ensures h p) fun a ha => .bind (expandList_ensures h ps) fun as has =>
      .pure (h.synthesized rfl (.cons ha has))
  | .typeApply p ps => by
    rw [expand]
    exact .bind (expand_ensures h p) fun a ha => .bind (expandEach_ensures h ps) fun as has =>
      .pure (h.synthesized rfl (.cons ha has))
  | .select p name _ => by
    rw [expand]
    exact .bind (expand_ensures h p) fun a ha => .bind (.trivial _) fun type _ =>
      .pure (h.selectFrom ha name type)
  | .newArray element dims init => by
    rw [expand]
    exact .bind (expandOption_ensures h element) fun a ha =>
      .bind (expandList_ensures h dims) fun as has => .bind (expandInit_ensures h init)
        fun bs hbs => .pure (h.synthesized rfl (.append ha (.append has hbs)))
  | .primitiveType _ => .pure (h.synthesized rfl .nil)
  | .anyOf _ => .throw _
  | .repeated _ => .throw _
  | .ofForm p _ => by
    rw [expand]
    exact expand_ensures h p

/-- Of a list of patterns, all nodes that are expanded have the property. -/
theorem expandList_ensures (h : c.Carries P) : (ps : List ExprPattern) →
    (expandList c ps).Ensures (Expr.AllOf P)
  | [] => .pure .nil
  | p :: ps => by
    unfold expandList
    split
    · exact .pure .nil
    · rename_i name rest heq
      obtain ⟨-, rfl⟩ := List.cons_eq_cons.mp heq
      exact .bind (h.repeatedNamed name) fun as has => .bind (expandList_ensures h ps)
        fun bs hbs => .pure (.append has hbs)
    · rename_i p' rest heq
      obtain ⟨rfl, rfl⟩ := List.cons_eq_cons.mp heq
      exact .bind (expand_ensures h p) fun a ha => .bind (expandList_ensures h ps) fun as has =>
        .pure (.cons ha has)

theorem expandEach_ensures (h : c.Carries P) : (ps : List ExprPattern) →
    (expandEach c ps).Ensures (Expr.AllOf P)
  | [] => .pure .nil
  | p :: ps => by
    rw [expandEach]
    exact .bind (expand_ensures h p) fun a ha => .bind (expandEach_ensures h ps) fun as has =>
      .pure (.cons ha has)

theorem expandOption_ensures (h : c.Carries P) : (p : Option ExprPattern) →
    (expandOption c p).Ensures fun e => Expr.AllOf P e.toList
  | none => .pure .nil
  | some p => by
    rw [expandOption]
    exact .bind (expand_ensures h p) fun a ha => .pure (.cons ha .nil)

theorem expandInit_ensures (h : c.Carries P) : (ps : Option (List ExprPattern)) →
    (expandInit c ps).Ensures fun es => Expr.AllOf P (es.getD [])
  | none => .pure .nil
  | some ps => by
    rw [expandInit]
    exact .bind (expandList_ensures h ps) fun as has => .pure has

end

end ExprPattern

end JavaRefactor
