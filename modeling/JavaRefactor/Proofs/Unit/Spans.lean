import JavaRefactor.Proofs.Unit.Placement
import JavaRefactor.Unit.Basic

/-!
# The spans of a laid-out unit

Building a unit lays its declarations out and places them in the text.  What comes out is
laid out exactly (`CompilationUnit.ofDeclarations_laidOut`): the source is the text of the
declarations as they are placed, and every node has the span of its own text.  So the spans
that were recorded are the spans of the nodes in visiting order, the source under an
expression is the expression, and the children of a node lie inside it one after the other
(`CompilationUnit.ofDeclarations_spans`).
-/

namespace JavaRefactor

open Layout

namespace SyntaxNode

/-- The spans of a laid-out node and of the nodes inside it are those recorded for the
layout. -/
theorem LaidAt.map_span_nodes {start : Nat} {l : Layout} {n : SyntaxNode} (h : LaidAt start l n) :
    n.nodes.map span = nodeSpans start l := by
  induction h with
  | @node start parts n printed hspan count child ih =>
    have each (ps : List (Nat × Layout)) (ns : List SyntaxNode) (length : ps.length = ns.length)
        (zipped : ∀ q ∈ ps.zip ns, q.2.nodes.map span = nodeSpans q.1.1 q.1.2) :
        (ns.flatMap nodes).map span = ps.flatMap fun p => nodeSpans p.1 p.2 := by
      induction ps generalizing ns with
      | nil =>
        obtain rfl := List.eq_nil_of_length_eq_zero length.symm
        rfl
      | cons p ps ihps =>
        cases ns with
        | nil => exact absurd length (by simp)
        | cons n ns =>
          rw [List.flatMap_cons, List.flatMap_cons, List.map_append,
            zipped (p, n) List.mem_cons_self,
            ihps ns (Nat.succ.inj length) fun q hq => zipped q (List.mem_cons_of_mem _ hq)]
    rw [nodes_eq, List.map_cons, hspan, nodeSpans, nodeSpansOf_eq, each _ _ count ih]

/-- Every node inside a laid-out node is laid out, and what holds of the layout and is passed
on to the places in a layout holds of its layout. -/
theorem LaidAt.exists_of_mem_nodes {At : Nat → Layout → Prop} {start : Nat} {l : Layout}
    {n m : SyntaxNode} (h : LaidAt start l n) (here : At start l) (hm : m ∈ n.nodes)
    (inner : ∀ start parts, At start (.node parts) → ∀ p ∈ places start parts, At p.1 p.2) :
    ∃ start' l', LaidAt start' l' m ∧ At start' l' := by
  induction h with
  | @node start parts n printed hspan count child ih =>
    rw [nodes_eq] at hm
    rcases List.mem_cons.mp hm with rfl | hm
    · exact ⟨start, .node parts, .node printed hspan count child, here⟩
    · obtain ⟨c, hc, hm⟩ := List.mem_flatMap.mp hm
      obtain ⟨i, hi, rfl⟩ := List.getElem_of_mem hc
      have hi' : i < (places start parts).length := by omega
      have paired :
          ((places start parts)[i], n.children[i]) ∈ (places start parts).zip n.children := by
        rw [← List.getElem_zip (h := by rw [List.length_zip]; omega)]
        exact List.getElem_mem _
      exact ih _ paired (inner start parts here _ (List.getElem_mem hi')) hm

/-- Every node inside a laid-out node is laid out, with its own text at its place. -/
theorem LaidAt.of_mem_nodes {source : String} {start : Nat} {l : Layout} {n m : SyntaxNode}
    (h : LaidAt start l n) (text : TextAt source start l.toText) (hm : m ∈ n.nodes) :
    ∃ start' l', LaidAt start' l' m ∧ TextAt source start' l'.toText :=
  h.exists_of_mem_nodes text hm fun _ _ text _ hp => text.place hp

variable {source : String} {start : Nat} {l : Layout} {n : SyntaxNode}

/-- Every child of a laid-out node is laid out, with its own text at its place. -/
theorem LaidAt.exists_child (h : LaidAt start l n) (text : TextAt source start l.toText)
    {c : SyntaxNode} (hc : c ∈ n.children) :
    ∃ start' l', LaidAt start' l' c ∧ TextAt source start' l'.toText :=
  h.of_mem_nodes text (mem_nodes_of_mem_children hc)

/-- In a source that is not too long, the span of a laid-out node is that of its text. -/
theorem LaidAt.span_eq (h : LaidAt start l n) (text : TextAt source start l.toText)
    (small : source.utf8ByteSize < Span.maxOffset) : n.span = ⟨start, start + l.width⟩ := by
  obtain ⟨_, hspan, _, _⟩ := h
  have stop := text.stop_le
  rw [toText] at stop
  rw [hspan, Span.ofOffsets, width, toText, Nat.min_eq_left (by omega), Nat.min_eq_left (by omega)]

/-- The spans of the children of a laid-out node are those of the places in its layout. -/
theorem LaidAt.map_span_children {parts : List Layout} (h : LaidAt start (.node parts) n)
    (text : TextAt source start (textOf parts)) (small : source.utf8ByteSize < Span.maxOffset) :
    n.children.map span = (places start parts).map fun p => ⟨p.1, p.1 + p.2.width⟩ := by
  obtain ⟨_, _, count, child⟩ := h
  refine List.ext_getElem (by rw [List.length_map, List.length_map, count]) ?_
  intro i hi hi'
  rw [List.length_map] at hi hi'
  have paired : ((places start parts)[i], n.children[i]) ∈ (places start parts).zip n.children := by
    rw [← List.getElem_zip (h := by rw [List.length_zip]; omega)]
    exact List.getElem_mem _
  rw [List.getElem_map, List.getElem_map]
  exact (child _ paired).span_eq (text.place (List.getElem_mem hi')) small

/-- The source under a laid-out expression is the expression. -/
theorem LaidAt.slice?_eq {e : Expr} (h : LaidAt start l (.expr e))
    (text : TextAt source start l.toText) (small : source.utf8ByteSize < Span.maxOffset) :
    e.span.slice? source = some e.print := by
  have span : e.span = ⟨start, start + l.width⟩ := h.span_eq text small
  obtain ⟨printed, _, _, _⟩ := h
  rw [span, Expr.print, printed]
  exact text.slice?_eq

/-- The children of a laid-out node lie inside it. -/
theorem LaidAt.contains_child (h : LaidAt start l n) (text : TextAt source start l.toText)
    (small : source.utf8ByteSize < Span.maxOffset) {c : SyntaxNode} (hc : c ∈ n.children) :
    n.span.contains c.span = true := by
  obtain ⟨parts, rfl⟩ : ∃ parts, l = .node parts := by
    cases h
    exact ⟨_, rfl⟩
  have mem : c.span ∈ n.children.map span := List.mem_map_of_mem hc
  rw [h.map_span_children text small] at mem
  obtain ⟨p, hp, same⟩ := List.mem_map.mp mem
  rw [h.span_eq text small, ← same, Span.contains_iff]
  exact ⟨le_of_mem_places hp, stop_le_of_mem_places hp⟩

/-- The children of a laid-out node stand one after the other. -/
theorem LaidAt.pairwise_children (h : LaidAt start l n) (text : TextAt source start l.toText)
    (small : source.utf8ByteSize < Span.maxOffset) :
    (n.children.map span).Pairwise fun a b => a.stop ≤ b.start := by
  obtain ⟨parts, rfl⟩ : ∃ parts, l = .node parts := by
    cases h
    exact ⟨_, rfl⟩
  rw [h.map_span_children text small, List.pairwise_map]
  exact pairwise_places start parts

end SyntaxNode

/-! ### Units -/

/-- The layout of a package declaration. -/
def packageLayout (name : String) : Layout := .node [.text "package ", .text name, .text ";"]

/-- The layout of what stands in front of the classes: the package declaration and the
imports. -/
def headerLayout (package : Option String) (imports : List Import) : List Layout :=
  (match package with
    | some name => [packageLayout name, .text "\n\n"]
    | none => [])
    ++ imports.flatMap fun i => [i.layout, .text "\n"]

/-- The layout of the classes of a file and of the blank lines around them. -/
def bodyLayout (package : Option String) (imports : List Import) (types : List TypeDecl) :
    List Layout :=
  (if imports.isEmpty then [] else [.text "\n"])
    ++ separated "\n" (types.map fun t => [t.layout, .text "\n"])
    ++ (if package.isNone ∧ imports.isEmpty ∧ types.isEmpty then [.text "\n"] else [])

/-- A unit is laid out as its header and then its classes. -/
theorem layoutUnit_eq (package : Option String) (imports : List Import) (types : List TypeDecl) :
    layoutUnit package imports types
      = headerLayout package imports ++ bodyLayout package imports types := by
  cases package with
  | none => simp only [layoutUnit, headerLayout, bodyLayout, List.append_assoc]
  | some name => simp only [layoutUnit, headerLayout, bodyLayout, packageLayout, List.append_assoc]

/-- The nodes of the header are the package and the imports. -/
theorem subnodes_headerLayout (package : Option String) (imports : List Import) :
    subnodes (headerLayout package imports)
      = package.toList.map packageLayout ++ imports.map Import.layout := by
  have lines : subnodes (imports.flatMap fun i => [i.layout, .text "\n"])
      = imports.map Import.layout := by
    induction imports with
    | nil => rfl
    | cons i is ih =>
      rw [List.flatMap_cons, subnodes_append, ih]
      rfl
  cases package with
  | none => rw [headerLayout, subnodes_append, lines]; rfl
  | some name => rw [headerLayout, subnodes_append, lines]; rfl

/-- The nodes behind the header are the classes. -/
theorem subnodes_bodyLayout (package : Option String) (imports : List Import)
    (types : List TypeDecl) :
    subnodes (bodyLayout package imports types) = types.map TypeDecl.layout := by
  have classes : (types.map fun t => [t.layout, .text "\n"]).flatMap subnodes
      = types.map TypeDecl.layout := by
    induction types with
    | nil => rfl
    | cons t ts ih =>
      rw [List.map_cons, List.flatMap_cons, ih]
      rfl
  have blank : subnodes (if imports.isEmpty then [] else [.text "\n"]) = [] := by
    split <;> rfl
  have last : subnodes (if package.isNone ∧ imports.isEmpty ∧ types.isEmpty then [.text "\n"]
      else []) = [] := by
    split <;> rfl
  rw [bodyLayout, subnodes_append, subnodes_append, blank, subnodes_separated, classes, last,
    List.append_nil, List.nil_append]

/-- The subnodes of a file: the package declaration, the imports and the classes. -/
theorem subnodes_layoutUnit (package : Option String) (imports : List Import)
    (types : List TypeDecl) :
    subnodes (layoutUnit package imports types)
      = package.toList.map packageLayout
        ++ imports.map Import.layout ++ types.map TypeDecl.layout := by
  rw [layoutUnit_eq, subnodes_append, subnodes_headerLayout, subnodes_bodyLayout]

/-- A file is written as before when its imports and classes are replaced by ones that are
written alike. -/
theorem layoutUnit_congr {package : Option String} {imports imports' : List Import}
    {types types' : List TypeDecl}
    (hImports : imports'.map Import.layout = imports.map Import.layout)
    (hTypes : types'.map TypeDecl.layout = types.map TypeDecl.layout) :
    layoutUnit package imports' types' = layoutUnit package imports types := by
  have lines (is : List Import) : is.flatMap (fun i => [i.layout, .text "\n"])
      = (is.map Import.layout).flatMap fun l => [l, .text "\n"] := by
    rw [List.flatMap_map]
  have classes (ts : List TypeDecl) : ts.map (fun t => [t.layout, .text "\n"])
      = (ts.map TypeDecl.layout).map fun l => [l, .text "\n"] := by
    rw [List.map_map]
    rfl
  have noImports : imports'.isEmpty = imports.isEmpty := by
    rw [← List.isEmpty_map (f := Import.layout), hImports, List.isEmpty_map]
  have noTypes : types'.isEmpty = types.isEmpty := by
    rw [← List.isEmpty_map (f := TypeDecl.layout), hTypes, List.isEmpty_map]
  cases package with
  | none => rw [layoutUnit, layoutUnit, lines, classes, hImports, hTypes, noImports, noTypes,
      ← lines, ← classes]
  | some name => rw [layoutUnit, layoutUnit, lines, classes, hImports, hTypes, noImports, noTypes,
      ← lines, ← classes]

/-- Classes are placed as classes. -/
theorem SyntaxNode.threadEach_types (ts : List TypeDecl) (spans : List Span) :
    threadEach place (ts.map type) spans
      = ((threadEach TypeDecl.place ts spans).1.map type,
        (threadEach TypeDecl.place ts spans).2) :=
  threadEach_wrap (fun _ _ => rfl) ts spans

/-- Placing imports with the spans recorded for them. -/
theorem threadEach_imports {ps : List (Nat × Layout)} {imports : List Import}
    (h : ps.map Prod.snd = imports.map Import.layout) (rest : List Span) :
    (threadEach Import.place imports
        (ps.flatMap (fun p => nodeSpans p.1 p.2) ++ rest)).2 = rest ∧
      (threadEach Import.place imports
        (ps.flatMap (fun p => nodeSpans p.1 p.2) ++ rest)).1.map Import.layout
          = imports.map Import.layout ∧
      (threadEach Import.place imports
        (ps.flatMap (fun p => nodeSpans p.1 p.2) ++ rest)).1.map Import.span
          = ps.map fun p => .ofOffsets p.1 (p.1 + p.2.width) := by
  induction imports generalizing ps with
  | nil =>
    obtain rfl := List.map_eq_nil_iff.mp h
    exact ⟨rfl, rfl, rfl⟩
  | cons i is ih =>
    cases ps with
    | nil => exact absurd h (by simp)
    | cons p ps =>
      obtain ⟨own, others⟩ := List.cons_eq_cons.mp h
      obtain ⟨left, layouts, spans⟩ := ih others
      obtain ⟨start, l⟩ := p
      obtain rfl : l = i.layout := own
      refine ⟨left, congrArg (i.layout :: ·) layouts, congrArg (_ :: ·) spans⟩

namespace CompilationUnit

/-- The layout of the declarations of a unit. -/
def layout (u : CompilationUnit) : List Layout := layoutUnit u.package u.imports u.types

/-- The spans of the package declaration and the imports. -/
def headerSpans (u : CompilationUnit) : List Span :=
  (if u.package.isSome then [u.packageSpan] else []) ++ u.imports.map Import.span

/-- New imports go where the package declaration or an import ends, or to the top. -/
theorem importOffset_eq (u : CompilationUnit) :
    u.importInsertionPoint.1 = 0 ∨ ∃ s ∈ u.headerSpans, u.importInsertionPoint.1 = s.stop := by
  unfold importInsertionPoint headerSpans
  split
  · rename_i last hlast
    refine .inr ⟨last.span, List.mem_append_right _ ?_, rfl⟩
    exact List.mem_map_of_mem (List.mem_of_getLast? hlast)
  · split
    · rename_i package
      exact .inr ⟨u.packageSpan, List.mem_append_left _ List.mem_cons_self, rfl⟩
    · exact .inl rfl

/-- The nodes of the classes of a unit, each before its children. -/
def nodes (u : CompilationUnit) : List SyntaxNode := u.types.flatMap TypeDecl.nodes

/-- The nodes of a node of a unit are nodes of the unit. -/
theorem nodes_trans {u : CompilationUnit} {n m : SyntaxNode} (hn : n ∈ u.nodes)
    (hm : m ∈ n.nodes) : m ∈ u.nodes := by
  obtain ⟨t, ht, hn⟩ := List.mem_flatMap.mp hn
  exact List.mem_flatMap.mpr ⟨t, ht, SyntaxNode.nodes_trans (n := .type t) hn hm⟩

/-- The body of a method is among the nodes of its class. -/
theorem body_mem_nodes {u : CompilationUnit} {t : TypeDecl} (ht : t ∈ u.types) {m : MethodDecl}
    (hm : m ∈ t.methods) {n : SyntaxNode} (hn : n ∈ (SyntaxNode.stmt m.body).nodes) :
    n ∈ u.nodes := by
  refine List.mem_flatMap.mpr ⟨t, ht, ?_⟩
  refine List.mem_append_right _ (List.mem_flatMap.mpr ⟨m, hm, ?_⟩)
  exact List.mem_append_right _ hn

/-- The expressions of the fields and method bodies are among the nodes. -/
theorem expr_mem_nodes {u : CompilationUnit} {e : Expr} (he : e ∈ u.exprs) :
    SyntaxNode.expr e ∈ u.nodes := by
  obtain ⟨t, ht, he⟩ := List.mem_flatMap.mp he
  rcases List.mem_append.mp he with he | he
  · obtain ⟨f, hf, he⟩ := List.mem_flatMap.mp he
    obtain ⟨x, hx, he⟩ := List.mem_flatMap.mp he
    refine List.mem_flatMap.mpr ⟨t, ht, List.mem_append_left _ (List.mem_cons_of_mem _ ?_)⟩
    refine List.mem_flatMap.mpr ⟨x, List.mem_flatMap.mpr ⟨f, hf, hx⟩, ?_⟩
    exact List.mem_map_of_mem he
  · obtain ⟨m, hm, he⟩ := List.mem_flatMap.mp he
    exact body_mem_nodes ht hm (SyntaxNode.expr_mem_nodes he)

/-- The statements of the method bodies are among the nodes. -/
theorem stmt_mem_nodes {u : CompilationUnit} {s : Stmt} (hs : s ∈ u.stmts) :
    SyntaxNode.stmt s ∈ u.nodes := by
  obtain ⟨t, ht, hs⟩ := List.mem_flatMap.mp hs
  obtain ⟨m, hm, hs⟩ := List.mem_flatMap.mp hs
  exact body_mem_nodes ht hm (SyntaxNode.stmt_mem_nodes hs)

/-- The source of a unit is the text of its declarations, in which they have their places. -/
structure LaidOut (u : CompilationUnit) : Prop where
  source : u.source = textOf u.layout
  comments : u.comments = commentSpansOf 0 u.layout
  places : ∃ ps qs, Layout.places 0 u.layout = ps ++ qs ∧
    u.headerSpans = ps.map (fun p => .ofOffsets p.1 (p.1 + p.2.width)) ∧
    ps.flatMap (fun p => nodeSpans p.1 p.2)
      = ps.map (fun p => .ofOffsets p.1 (p.1 + p.2.width)) ∧
    List.Forall₂ (fun q t => SyntaxNode.LaidAt q.1 q.2 (.type t)) qs u.types

/-- One span is recorded for each import. -/
theorem importSpans {ps : List (Nat × Layout)} {imports : List Import}
    (h : ps.map Prod.snd = imports.map Import.layout) :
    ps.flatMap (fun p => nodeSpans p.1 p.2)
      = ps.map (fun p => .ofOffsets p.1 (p.1 + p.2.width)) := by
  induction ps generalizing imports with
  | nil => rfl
  | cons p ps ih =>
    cases imports with
    | nil => exact absurd h (by simp)
    | cons i is =>
      obtain ⟨own, others⟩ := List.cons_eq_cons.mp h
      obtain ⟨start, l⟩ := p
      obtain rfl : l = i.layout := own
      exact congrArg (_ :: ·) (ih others)

/-- Placing the imports and then the classes with the spans recorded for them puts them where
they are laid out, keeps how they are written, and uses the spans up. -/
theorem place_members {lines classes : List (Nat × Layout)} {imports : List Import}
    {types : List TypeDecl} (hlines : lines.map Prod.snd = imports.map Import.layout)
    (hclasses : classes.map Prod.snd = types.map TypeDecl.layout) {spans : List Span}
    (recorded : spans = lines.flatMap (fun p => nodeSpans p.1 p.2)
      ++ classes.flatMap fun p => nodeSpans p.1 p.2) :
    (threadEach Import.place imports spans).1.map Import.layout = imports.map Import.layout ∧
      (threadEach Import.place imports spans).1.map Import.span
        = lines.map (fun p => .ofOffsets p.1 (p.1 + p.2.width)) ∧
      (threadEach TypeDecl.place types (threadEach Import.place imports spans).2).1.map
        TypeDecl.layout = types.map TypeDecl.layout ∧
      List.Forall₂ (fun q t => SyntaxNode.LaidAt q.1 q.2 (.type t)) classes
        (threadEach TypeDecl.place types (threadEach Import.place imports spans).2).1 ∧
      (threadEach TypeDecl.place types (threadEach Import.place imports spans).2).2 = [] := by
  obtain ⟨left, layouts, lineSpans⟩ :=
    threadEach_imports hlines (classes.flatMap fun p => nodeSpans p.1 p.2)
  have each : List.Forall₂ (fun p n => ∀ rest,
      SyntaxNode.LaidAt p.1 p.2 (n.place (nodeSpans p.1 p.2 ++ rest)).1 ∧
        SyntaxNode.WrittenAlike (n.place (nodeSpans p.1 p.2 ++ rest)).1 n ∧
        (n.place (nodeSpans p.1 p.2 ++ rest)).2 = rest) classes (types.map SyntaxNode.type) := by
    rw [List.forall₂_map_right_iff]
    rw [← List.forall₂_eq_eq_eq, List.forall₂_map_left_iff, List.forall₂_map_right_iff] at hclasses
    exact hclasses.imp fun p t same rest => SyntaxNode.place_laidAt (.type t) same.symm p.1 rest
  obtain ⟨laid, alike, leftTypes⟩ := SyntaxNode.threadEach_laidAt each []
  rw [SyntaxNode.threadEach_types, List.append_nil] at laid alike leftTypes
  rw [List.forall₂_map_right_iff] at laid
  rw [List.forall₂_map_left_iff, List.forall₂_map_right_iff] at alike
  rw [recorded, left]
  refine ⟨layouts, lineSpans, ?_, laid, leftTypes⟩
  rw [← List.forall₂_eq_eq_eq, List.forall₂_map_left_iff, List.forall₂_map_right_iff]
  refine alike.imp ?_
  intro t u same
  obtain _ | _ | _ | same := same
  exact same

/-- Declarations that are laid out anew are laid out exactly, and the recorded spans are used
up. -/
theorem ofDeclarations_laidOut (package : Option String) (imports : List Import)
    (types : List TypeDecl) (symbols : SymbolTable) :
    (ofDeclarations package imports types symbols).LaidOut ∧
      (ofDeclarations package imports types symbols).layout = layoutUnit package imports types ∧
      (threadEach TypeDecl.place types (threadEach Import.place imports
        (if package.isSome then (nodeSpansOf 0 (layoutUnit package imports types)).tail
          else nodeSpansOf 0 (layoutUnit package imports types))).2).2 = [] := by
  have split := map_snd_places 0 (layoutUnit package imports types)
  rw [subnodes_layoutUnit] at split
  obtain ⟨headers, classes, hplaces, hheaders, hclasses⟩ := List.map_eq_append_iff.mp split
  obtain ⟨first, lines, rfl, hfirst, hlines⟩ := List.map_eq_append_iff.mp hheaders
  -- the spans of the package line, if there is one, those of the imports, and those of the classes
  have recorded : nodeSpansOf 0 (layoutUnit package imports types)
      = first.flatMap (fun p => nodeSpans p.1 p.2) ++ (lines.flatMap (fun p => nodeSpans p.1 p.2)
        ++ classes.flatMap fun p => nodeSpans p.1 p.2) := by
    rw [nodeSpansOf_eq, hplaces, List.flatMap_append, List.flatMap_append, List.append_assoc]
  cases package with
  | none =>
    obtain rfl := List.map_eq_nil_iff.mp hfirst
    obtain ⟨layouts, lineSpans, typeLayouts, laid, left⟩ := place_members hlines hclasses recorded
    have same : (ofDeclarations none imports types symbols).layout
        = layoutUnit none imports types := layoutUnit_congr layouts typeLayouts
    refine ⟨⟨?_, ?_, lines, classes, ?_, lineSpans, importSpans hlines, laid⟩, same, left⟩
    · rw [same]
      rfl
    · rw [same]
      rfl
    · rw [same]
      exact hplaces
  | some name =>
    obtain ⟨⟨start, l⟩, rfl, rfl⟩ := List.map_eq_singleton_iff.mp hfirst
    have tail := congrArg List.tail recorded
    have head := congrArg (List.headD · Span.synthetic) recorded
    obtain ⟨layouts, lineSpans, typeLayouts, laid, left⟩ := place_members hlines hclasses tail
    have same : (ofDeclarations (some name) imports types symbols).layout
        = layoutUnit (some name) imports types := layoutUnit_congr layouts typeLayouts
    refine ⟨⟨?_, ?_, (start, packageLayout name) :: lines, classes, ?_, ?_, ?_, laid⟩, same, left⟩
    · rw [same]
      rfl
    · rw [same]
      rfl
    · rw [same]
      exact hplaces
    · exact List.cons_eq_cons.mpr ⟨head, lineSpans⟩
    · exact congrArg (_ :: ·) (importSpans hlines)

namespace LaidOut

variable {u : CompilationUnit}

/-- Every class of a laid-out unit is laid out at a place of its layout. -/
theorem exists_mem_places (h : u.LaidOut) {t : TypeDecl} (ht : t ∈ u.types) :
    ∃ p ∈ Layout.places 0 u.layout, SyntaxNode.LaidAt p.1 p.2 (.type t) := by
  obtain ⟨ps, qs, split, -, -, laid⟩ := h.places
  obtain ⟨i, hi, rfl⟩ := List.getElem_of_mem ht
  have hi' : i < qs.length := by rw [laid.length_eq]; exact hi
  refine ⟨qs[i], ?_, laid.get hi' hi⟩
  rw [split]
  exact List.mem_append_right _ (List.getElem_mem hi')

/-- The whole source is the text of the layout. -/
theorem textAt (h : u.LaidOut) : TextAt u.source 0 (textOf u.layout) :=
  ⟨"", "", by rw [h.source, String.empty_append, String.append_empty], rfl⟩

/-- Every class of a laid-out unit has its text at its place. -/
theorem exists_place (h : u.LaidOut) {t : TypeDecl} (ht : t ∈ u.types) :
    ∃ start l, SyntaxNode.LaidAt start l (.type t) ∧ TextAt u.source start l.toText := by
  obtain ⟨p, hp, laid⟩ := h.exists_mem_places ht
  exact ⟨p.1, p.2, laid, h.textAt.place hp⟩

/-- Every node of a laid-out unit has its text at its place. -/
theorem exists_place_of_mem_nodes (h : u.LaidOut) {n : SyntaxNode} (hn : n ∈ u.nodes) :
    ∃ start l, SyntaxNode.LaidAt start l n ∧ TextAt u.source start l.toText := by
  obtain ⟨t, ht, hn⟩ := List.mem_flatMap.mp hn
  obtain ⟨start, l, laid, text⟩ := h.exists_place ht
  exact laid.of_mem_nodes text hn

end LaidOut

/-- The spans of laid-out classes are those recorded for them. -/
theorem map_span_types {qs : List (Nat × Layout)} {ts : List TypeDecl}
    (h : List.Forall₂ (fun q t => SyntaxNode.LaidAt q.1 q.2 (.type t)) qs ts) :
    (ts.flatMap TypeDecl.nodes).map SyntaxNode.span = qs.flatMap fun q => nodeSpans q.1 q.2 := by
  induction h with
  | nil => rfl
  | cons hqt _ ih =>
    rw [List.flatMap_cons, List.map_append, ih, List.flatMap_cons]
    exact congrArg (· ++ _) hqt.map_span_nodes

/-- The spans of a unit are the recorded ones, in the order in which they are recorded. -/
theorem LaidOut.spans_eq {u : CompilationUnit} (h : u.LaidOut) :
    u.headerSpans ++ u.nodes.map SyntaxNode.span = nodeSpansOf 0 u.layout := by
  obtain ⟨ps, qs, split, headers, recorded, laid⟩ := h.places
  rw [nodeSpansOf_eq, split, List.flatMap_append, recorded, headers, nodes,
    map_span_types laid]

/-- A unit that is built from declarations of less than the longest recordable text has exact
spans.  They are the recorded ones, each taken by one node in visiting order and none left
over.  The source under every expression is the expression as it is printed; every node
contains its children, and these stand one after the other. -/
theorem ofDeclarations_spans (package : Option String) (imports : List Import)
    (types : List TypeDecl) (symbols : SymbolTable)
    (small : (textOf (layoutUnit package imports types)).utf8ByteSize < Span.maxOffset) :
    let recorded := nodeSpansOf 0 (layoutUnit package imports types)
    let u := ofDeclarations package imports types symbols
    u.headerSpans ++ u.nodes.map SyntaxNode.span = recorded ∧
      (threadEach TypeDecl.place types (threadEach Import.place imports
        (if package.isSome then recorded.tail else recorded)).2).2 = [] ∧
      (∀ e, SyntaxNode.expr e ∈ u.nodes → e.span.slice? u.source = some e.print) ∧
      (∀ n ∈ u.nodes, ∀ c ∈ n.children, n.span.contains c.span = true) ∧
      ∀ n ∈ u.nodes, (n.children.map SyntaxNode.span).Pairwise fun a b => a.stop ≤ b.start := by
  intro recorded u
  obtain ⟨laidOut, same, left⟩ := ofDeclarations_laidOut package imports types symbols
  have small : u.source.utf8ByteSize < Span.maxOffset := small
  refine ⟨?_, left, ?_, ?_, ?_⟩
  · rw [laidOut.spans_eq, same]
  · intro e he
    obtain ⟨start, l, laid, text⟩ := laidOut.exists_place_of_mem_nodes he
    exact laid.slice?_eq text small
  · intro n hn c hc
    obtain ⟨start, l, laid, text⟩ := laidOut.exists_place_of_mem_nodes hn
    exact laid.contains_child text small hc
  · intro n hn
    obtain ⟨start, l, laid, text⟩ := laidOut.exists_place_of_mem_nodes hn
    exact laid.pairwise_children text small

/-- A class with a field and a method, `private int x = -1;` and
`public int get() { return this.x; }`. -/
private def counterClass : TypeDecl where
  name := "A"
  fields := [⟨"x", .primitiveType (.ofType (.primitive .int)) .int,
    some (.unary (.ofType (.primitive .int)) .minus (.ofLiteral (.int 1))), none, false⟩]
  methods := [⟨"get", [], .primitiveType (.ofType (.primitive .int)) .int, [],
    .block .synthetic [.ret .synthetic
      (some (.select (.ofType (.primitive .int)) (.this (.ofType .unknown)) "x" none))],
    false, .synthetic⟩]
  span := .synthetic

/-- The class in a package of its own has exact spans. -/
theorem ofDeclarations_spans_counter :
    (textOf (layoutUnit (some "p") [] [counterClass])).utf8ByteSize < Span.maxOffset ∧
      (let recorded := nodeSpansOf 0 (layoutUnit (some "p") [] [counterClass])
      let u := ofDeclarations (some "p") [] [counterClass] .empty
      u.headerSpans ++ u.nodes.map SyntaxNode.span = recorded ∧
        (threadEach TypeDecl.place [counterClass] (threadEach Import.place []
          (if (some "p").isSome then recorded.tail else recorded)).2).2 = [] ∧
        (∀ e, SyntaxNode.expr e ∈ u.nodes → e.span.slice? u.source = some e.print) ∧
        (∀ n ∈ u.nodes, ∀ c ∈ n.children, n.span.contains c.span = true) ∧
        ∀ n ∈ u.nodes,
          (n.children.map SyntaxNode.span).Pairwise fun a b => a.stop ≤ b.start) :=
  have small : (textOf (layoutUnit (some "p") [] [counterClass])).utf8ByteSize
      < Span.maxOffset := by decide
  ⟨small, ofDeclarations_spans (some "p") [] [counterClass] .empty small⟩

end CompilationUnit

end JavaRefactor
