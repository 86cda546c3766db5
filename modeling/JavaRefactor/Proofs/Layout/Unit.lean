import JavaRefactor.Proofs.Layout.Stmt

/-!
# The shape of the layout of nodes

What holds of expressions and statements holds of methods and classes too, so of every
syntax node: its layout is a node whose subnodes are layouts of its children, in the order
of the children (`SyntaxNode.subnodes_parts`), and it is written as before when its children
are replaced by ones that are written alike.
-/

namespace JavaRefactor

open Layout

/-- The declarations of a list are laid out one after the other. -/
theorem LaidOutEach.decls (ds : List VarDecl) :
    LaidOutEach ((ds.map (VarDecl.layout none)).flatMap subnodes)
      ((ds.flatMap VarDecl.children).map SyntaxNode.expr) := by
  induction ds with
  | nil => exact .nil
  | cons d ds ih =>
    rw [List.map_cons, List.flatMap_cons, List.flatMap_cons, List.map_append]
    exact (LaidOutEach.decl d).append ih

/-- The subnodes of a method are layouts of its parts. -/
theorem MethodDecl.subnodes_parts {m : MethodDecl} {parts : List Layout}
    (h : (SyntaxNode.method m).LaidOutAs (.node parts)) :
    LaidOutEach (subnodes parts) (SyntaxNode.method m).children := by
  obtain ⟨ind, h⟩ := h
  rw [MethodDecl.layout] at h
  rw [← Layout.node.inj h]
  have modifier : subnodes (if m.isStatic then [.text "static "] else []) = [] := by
    split <;> rfl
  have generics : subnodes (if m.typeParams.isEmpty then []
      else [.text ("<" ++ ", ".intercalate m.typeParams ++ "> ")]) = [] := by
    split <;> rfl
  have inner := (LaidOutEach.expr m.returnType).append
    ((LaidOutEach.decls m.params).append (.stmt m.body ind false))
  simp only [List.cons_append, List.append_assoc, subnodes_text, subnodes_append, modifier,
    generics, Expr.subnodes_layout_cons, subnodes_within, subnodes_separated, List.nil_append]
  exact inner

/-- The fields of a class are written one after the other. -/
theorem subnodes_fields (fs : List VarDecl) :
    subnodes (fs.flatMap fun f =>
      .text Indent.outermost.deeper.newline :: .text "private " :: f.layout none ++ [.text ";"])
        = (fs.map (VarDecl.layout none)).flatMap subnodes := by
  induction fs with
  | nil => rfl
  | cons f fs ih =>
    rw [List.flatMap_cons, subnodes_append, ih, List.map_cons, List.flatMap_cons]
    simp

/-- The methods of a class are written one after the other, each after some text. -/
theorem subnodes_methods (ms : List MethodDecl) {lead : Nat → List Layout}
    (hlead : ∀ i, subnodes (lead i) = []) :
    subnodes (ms.mapIdx fun i m => lead i
      ++ [.text Indent.outermost.deeper.newline, m.layout Indent.outermost.deeper]).flatten
        = ms.map (MethodDecl.layout Indent.outermost.deeper) := by
  induction ms generalizing lead with
  | nil => rfl
  | cons m ms ih =>
    rw [List.mapIdx_cons, List.flatten_cons, subnodes_append, List.map_cons,
      ih (fun i => hlead (i + 1)), subnodes_append, hlead]
    rfl

/-- The subnodes of a class are layouts of its parts. -/
theorem TypeDecl.subnodes_parts {t : TypeDecl} {parts : List Layout}
    (h : (SyntaxNode.type t).LaidOutAs (.node parts)) :
    LaidOutEach (subnodes parts) (SyntaxNode.type t).children := by
  obtain rfl : _ = parts := Layout.node.inj h
  have each (ms : List MethodDecl) : LaidOutEach
      (ms.map (MethodDecl.layout Indent.outermost.deeper)) (ms.map SyntaxNode.method) := by
    induction ms with
    | nil => exact .nil
    | cons m ms ih => exact .cons ⟨_, rfl⟩ ih
  have blank (i : Nat) :
      subnodes (if 0 < i ∨ !t.fields.isEmpty then [.text "\n"] else []) = [] := by
    split <;> rfl
  have inner := (LaidOutEach.decls t.fields).append (each t.methods)
  rw [← subnodes_fields, ← subnodes_methods t.methods blank] at inner
  simpa [SyntaxNode.children] using inner

/-- The subnodes of a node are layouts of its children. -/
theorem SyntaxNode.subnodes_parts {n : SyntaxNode} {parts : List Layout}
    (h : n.LaidOutAs (.node parts)) : LaidOutEach (subnodes parts) n.children := by
  cases n with
  | expr e =>
    rw [Expr.subnodes_parts h]
    exact .exprs e.children
  | stmt s => exact Stmt.subnodes_parts h
  | method m => exact MethodDecl.subnodes_parts h
  | type t => exact TypeDecl.subnodes_parts h

/-- The layout of a node is a node. -/
theorem SyntaxNode.exists_parts {n : SyntaxNode} {l : Layout} (h : n.LaidOutAs l) :
    ∃ parts, l = .node parts := by
  cases n with
  | expr e =>
    obtain ⟨parts, he⟩ := e.exists_layout_eq
    exact ⟨parts, h.symm.trans he⟩
  | stmt s =>
    obtain ⟨ind, inHeader, hs⟩ := h
    obtain ⟨parts, hp⟩ := s.exists_subnodes_layout ind inHeader
    rw [hs] at hp
    exact ⟨parts, (List.cons.inj hp).1⟩
  | method m =>
    obtain ⟨ind, hm⟩ := h
    exact ⟨_, hm.symm⟩
  | type t => exact ⟨_, h.symm⟩

/-! ### Nodes that are written alike -/

/-- Two nodes of one kind have the same layouts and look the same to the nodes around
them. -/
inductive SyntaxNode.WrittenAlike : SyntaxNode → SyntaxNode → Prop where
  | expr {a b : Expr} (h : a.WrittenAlike b) : WrittenAlike (.expr a) (.expr b)
  | stmt {s t : Stmt} (h : s.WrittenAlike t) : WrittenAlike (.stmt s) (.stmt t)
  | method {m k : MethodDecl} (h : ∀ ind, m.layout ind = k.layout ind) :
      WrittenAlike (.method m) (.method k)
  | type {t u : TypeDecl} (h : t.layout = u.layout) : WrittenAlike (.type t) (.type u)

/-- A layout of a node is one of every node that is written alike. -/
theorem SyntaxNode.WrittenAlike.laidOutAs {n k : SyntaxNode} (h : n.WrittenAlike k) {l : Layout}
    (hl : k.LaidOutAs l) : n.LaidOutAs l := by
  cases h with
  | expr h => exact h.layout.trans hl
  | stmt h =>
    obtain ⟨ind, inHeader, hl⟩ := hl
    exact ⟨ind, inHeader, by rw [h.layout]; exact hl⟩
  | method h =>
    obtain ⟨ind, hl⟩ := hl
    exact ⟨ind, (h ind).trans hl⟩
  | type h => exact h.trans hl

/-- A method is written as before when its parts are replaced by ones that are written
alike. -/
theorem MethodDecl.layout_congr {m : MethodDecl} {span : Span} {returnType : Expr}
    {params : List VarDecl} {body : Stmt} (hType : returnType.WrittenAlike m.returnType)
    (hParams : params.map (VarDecl.layout none) = m.params.map (VarDecl.layout none))
    (hBody : body.WrittenAlike m.body) (ind : Indent) :
    MethodDecl.layout ind { m with span, returnType, params, body } = m.layout ind := by
  rw [MethodDecl.layout, MethodDecl.layout, hType.layout, hParams, hBody.layout]

/-- A class is written as before when its members are replaced by ones that are written
alike. -/
theorem TypeDecl.layout_congr {t : TypeDecl} {span : Span} {fields : List VarDecl}
    {methods : List MethodDecl}
    (hFields : fields.map (VarDecl.layout none) = t.fields.map (VarDecl.layout none))
    (hMethods : ∀ ind,
      methods.map (MethodDecl.layout ind) = t.methods.map (MethodDecl.layout ind)) :
    TypeDecl.layout { t with span, fields, methods } = t.layout := by
  have empty : fields.isEmpty = t.fields.isEmpty := by
    rw [← List.isEmpty_map (f := VarDecl.layout none), hFields, List.isEmpty_map]
  have flat (fs : List VarDecl) (f : List Layout → List Layout) :
      fs.flatMap (fun d => f (d.layout none)) = (fs.map (VarDecl.layout none)).flatMap f := by
    rw [List.flatMap_map]
  have indexed (ms : List MethodDecl) (ind : Indent) (f : Nat → Layout → List Layout) :
      ms.mapIdx (fun i m => f i (m.layout ind))
        = (ms.map (MethodDecl.layout ind)).mapIdx f := by
    induction ms generalizing f with
    | nil => rfl
    | cons m ms ih =>
      rw [List.mapIdx_cons, List.map_cons, List.mapIdx_cons, ih fun i => f (i + 1)]
  have members := flat fields
    fun l => .text Indent.outermost.deeper.newline :: .text "private " :: l ++ [.text ";"]
  have members' := flat t.fields
    fun l => .text Indent.outermost.deeper.newline :: .text "private " :: l ++ [.text ";"]
  have bodies := indexed methods Indent.outermost.deeper fun i l =>
    (if 0 < i ∨ !t.fields.isEmpty then [.text "\n"] else [])
      ++ [.text Indent.outermost.deeper.newline, l]
  have bodies' := indexed t.methods Indent.outermost.deeper fun i l =>
    (if 0 < i ∨ !t.fields.isEmpty then [.text "\n"] else [])
      ++ [.text Indent.outermost.deeper.newline, l]
  rw [hFields, ← members'] at members
  rw [hMethods, ← bodies'] at bodies
  simp only [TypeDecl.layout, empty]
  rw [members, bodies]

end JavaRefactor
