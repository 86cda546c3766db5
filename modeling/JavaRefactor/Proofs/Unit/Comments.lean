import JavaRefactor.Proofs.Layout.Comments

/-!
# Where the comments of a unit stand

`SetIn` says of layouts at an offset of a source that every comment of the file is one of
theirs, or stands in front of them or behind them.  A laid-out unit is set in its own source
(`LaidOut.setIn`), and what is set in a source sets in it the layouts that it is made of
(`SetIn.append`, `SetIn.place`).  So every node of a unit is set in the source of the unit
(`LaidOut.exists_setIn`), and no comment overlaps an expression (`LaidOut.apart_expr`).
-/

namespace JavaRefactor

open Layout

/-- Layouts stand at an offset of a source, and each of some comments is one of theirs, or
stands in front of them or behind them. -/
structure SetIn (source : String) (ks : List Span) (start : Nat) (ls : List Layout) : Prop where
  text : TextAt source start (textOf ls)
  own : ∀ k ∈ commentSpansOf start ls, k ∈ ks
  others : ∀ k ∈ ks, k ∈ commentSpansOf start ls ∨ k.stop ≤ start ∨
    start + (textOf ls).utf8ByteSize ≤ k.start

namespace SetIn

variable {source : String} {ks : List Span} {start : Nat} {ls : List Layout}

/-- The comments of layouts lie within their text. -/
theorem bounds (h : SetIn source ks start ls) (small : source.utf8ByteSize < Span.maxOffset)
    {k : Span} (hk : k ∈ commentSpansOf start ls) :
    start ≤ k.start ∧ k.start ≤ k.stop ∧ k.stop ≤ start + (textOf ls).utf8ByteSize :=
  (chain_commentSpansOf ls h.text small).1.bounds_of_mem hk

/-- Where no comments are written, no comment overlaps the text. -/
theorem apart (h : SetIn source ks start ls) (small : source.utf8ByteSize < Span.maxOffset)
    (silent : commentsOf ls = []) {k : Span} (hk : k ∈ ks) :
    k.stop ≤ start ∨ start + (textOf ls).utf8ByteSize ≤ k.start := by
  have count := (chain_commentSpansOf ls h.text small).2.length_eq
  rw [silent, List.length_nil] at count
  have none : commentSpansOf start ls = [] := List.eq_nil_of_length_eq_zero count
  have found := h.others k hk
  rw [none] at found
  exact found.resolve_left List.not_mem_nil

/-- Where comments are written, a comment stands inside the text. -/
theorem exists_inside (h : SetIn source ks start ls)
    (small : source.utf8ByteSize < Span.maxOffset) (written : commentsOf ls ≠ []) :
    ∃ k ∈ ks, start ≤ k.start ∧ k.stop ≤ start + (textOf ls).utf8ByteSize := by
  have count := (chain_commentSpansOf ls h.text small).2.length_eq
  obtain ⟨k, hk⟩ : ∃ k, k ∈ commentSpansOf start ls := by
    refine List.exists_mem_of_ne_nil _ ?_
    intro none
    rw [none, List.length_nil] at count
    exact written (List.eq_nil_of_length_eq_zero count.symm)
  obtain ⟨lower, -, upper⟩ := h.bounds small hk
  exact ⟨k, h.own k hk, lower, upper⟩

/-- Layouts one after the other are set in a source each. -/
theorem append {before after : List Layout} (small : source.utf8ByteSize < Span.maxOffset)
    (h : SetIn source ks start (before ++ after)) :
    SetIn source ks start before ∧
      SetIn source ks (start + (textOf before).utf8ByteSize) after := by
  have text := h.text
  rw [textOf_append] at text
  obtain ⟨first, last⟩ := text.append
  have size : start + (textOf (before ++ after)).utf8ByteSize
      = start + (textOf before).utf8ByteSize + (textOf after).utf8ByteSize := by
    rw [textOf_append, String.utf8ByteSize_append, Nat.add_assoc]
  have split := commentSpansOf_append start before after
  refine ⟨⟨first, ?_, ?_⟩, ⟨last, ?_, ?_⟩⟩
  · intro k hk
    refine h.own k ?_
    rw [split]
    exact List.mem_append_left _ hk
  · intro k hk
    rcases h.others k hk with hk | front | back
    · rw [split] at hk
      rcases List.mem_append.mp hk with mine | later
      · exact .inl mine
      -- the comments of the second part start where the first one ends, or later
      · have := (chain_commentSpansOf after last small).1.bounds_of_mem later
        exact .inr (.inr this.1)
    · exact .inr (.inl front)
    · exact .inr (.inr (by omega))
  · intro k hk
    refine h.own k ?_
    rw [split]
    exact List.mem_append_right _ hk
  · intro k hk
    rcases h.others k hk with hk | front | back
    · rw [split] at hk
      rcases List.mem_append.mp hk with earlier | mine
      · have := (chain_commentSpansOf before first small).1.bounds_of_mem earlier
        exact .inr (.inl this.2.2)
      · exact .inl mine
    · exact .inr (.inl (by omega))
    · exact .inr (.inr (by omega))

/-- A layout and those behind it are set in a source each. -/
theorem cons {l : Layout} {after : List Layout} (small : source.utf8ByteSize < Span.maxOffset)
    (h : SetIn source ks start (l :: after)) :
    SetIn source ks start [l] ∧ SetIn source ks (start + l.width) after := by
  have split : SetIn source ks start ([l] ++ after) := h
  have both := split.append small
  rw [textOf_singleton] at both
  exact both

/-- The parts of a node are set in a source where the node is. -/
theorem parts {parts : List Layout} (h : SetIn source ks start [.node parts]) :
    SetIn source ks start parts := by
  obtain ⟨text, own, others⟩ := h
  rw [textOf_singleton] at text others
  rw [commentSpansOf, commentSpansOf, List.append_nil] at own others
  exact ⟨text, own, others⟩

/-- The node at a place of some layouts is set in the source. -/
theorem place (small : source.utf8ByteSize < Span.maxOffset) (h : SetIn source ks start ls)
    {p : Nat × Layout} (hp : p ∈ places start ls) : SetIn source ks p.1 [p.2] := by
  obtain ⟨before, after, rfl, offset⟩ := mem_places hp
  rw [offset]
  exact ((h.append small).2.cons small).1

end SetIn

namespace CompilationUnit.LaidOut

variable {u : CompilationUnit}

/-- A laid-out unit is set in its own source with its own comments. -/
theorem setIn (h : u.LaidOut) : SetIn u.source u.comments 0 u.layout := by
  rw [h.comments]
  exact ⟨h.textAt, fun _ hk => hk, fun _ hk => .inl hk⟩

/-- The comments of a laid-out unit stand in its source one after the other, each under its
span. -/
theorem forall₂_comments (h : u.LaidOut) (small : u.source.utf8ByteSize < Span.maxOffset) :
    SpanChain 0 u.source.utf8ByteSize u.comments ∧
      List.Forall₂ (fun k t => TextAt u.source k.start t ∧ k.stop = k.start + t.utf8ByteSize)
        u.comments (commentsOf u.layout) := by
  obtain ⟨chain, texts⟩ := chain_commentSpansOf u.layout h.textAt small
  rw [Nat.zero_add, ← h.source] at chain
  rw [h.comments]
  exact ⟨chain, texts⟩

/-- Every node of a laid-out unit is set in its source. -/
theorem exists_setIn (h : u.LaidOut) (small : u.source.utf8ByteSize < Span.maxOffset)
    {n : SyntaxNode} (hn : n ∈ u.nodes) :
    ∃ start l, SyntaxNode.LaidAt start l n ∧ SetIn u.source u.comments start [l] := by
  obtain ⟨t, ht, hn⟩ := List.mem_flatMap.mp hn
  obtain ⟨p, hp, laid⟩ := h.exists_mem_places ht
  refine laid.exists_of_mem_nodes (h.setIn.place small hp) hn ?_
  intro start parts here q hq
  exact here.parts.place small hq

/-- No comment overlaps an expression. -/
theorem apart_expr (h : u.LaidOut) (small : u.source.utf8ByteSize < Span.maxOffset) {e : Expr}
    (he : SyntaxNode.expr e ∈ u.nodes) {k : Span} (hk : k ∈ u.comments) :
    k.stop ≤ e.span.start ∨ e.span.stop ≤ k.start := by
  obtain ⟨start, l, laid, set⟩ := h.exists_setIn small he
  have text := set.text
  rw [textOf_singleton] at text
  have span : e.span = ⟨start, start + l.width⟩ := laid.span_eq text small
  obtain @⟨_, parts, _, printed, -, -, -⟩ := laid
  have printed : e.layout none = .node parts := printed
  have silent : commentsOf [Layout.node parts] = [] := by
    rw [← printed, Expr.commentsOf_layout_cons, commentsOf_nil]
  have found := set.apart small silent hk
  rw [textOf_singleton] at found
  rw [span]
  exact found

/-- The layout of what stands in front of the classes has the places of the package
declaration and the imports. -/
theorem places_header (h : u.LaidOut) :
    u.headerSpans = (Layout.places 0 (headerLayout u.package u.imports)).map
      fun p => .ofOffsets p.1 (p.1 + p.2.width) := by
  obtain ⟨ps, qs, split, headers, -, laid⟩ := h.places
  have whole : Layout.places 0 u.layout = Layout.places 0 (headerLayout u.package u.imports)
      ++ Layout.places (0 + (textOf (headerLayout u.package u.imports)).utf8ByteSize)
        (bodyLayout u.package u.imports u.types) := by
    rw [layout, layoutUnit_eq, places_append]
  have classes : (Layout.places (0 + (textOf (headerLayout u.package u.imports)).utf8ByteSize)
      (bodyLayout u.package u.imports u.types)).length = qs.length := by
    rw [laid.length_eq, ← List.length_map (f := Prod.snd), map_snd_places, subnodes_bodyLayout,
      List.length_map]
  obtain ⟨rfl, -⟩ := List.append_inj' (whole.symm.trans split) classes
  exact headers

/-- New imports go between two characters of the source and into no comment. -/
theorem importOffset_apart (h : u.LaidOut) (small : u.source.utf8ByteSize < Span.maxOffset) :
    TextAt u.source u.importInsertionPoint.1 "" ∧
      ∀ k ∈ u.comments, k.stop ≤ u.importInsertionPoint.1 ∨
        u.importInsertionPoint.1 ≤ k.start := by
  have set := h.setIn
  rw [layout, layoutUnit_eq] at set
  have header := (set.append small).1
  have behind {k : Span} (hk : k ∈ u.comments) :=
    header.apart small (commentsOf_headerLayout u.package u.imports) hk
  rcases u.importOffset_eq with top | ⟨s, hs, stop⟩
  · rw [top]
    refine ⟨h.textAt.inner "" (textOf u.layout) (by simp), ?_⟩
    exact fun k _ => .inr (Nat.zero_le _)
  · rw [h.places_header] at hs
    obtain ⟨p, hp, rfl⟩ := List.mem_map.mp hs
    have text := header.text.place hp
    have le := stop_le_of_mem_places hp
    have whole := text.stop_le
    have offset : u.importInsertionPoint.1 = p.1 + p.2.width := by
      rw [stop]
      exact Nat.min_eq_left (by rw [width]; omega)
    rw [offset]
    refine ⟨text.inner p.2.toText "" (by simp), ?_⟩
    intro k hk
    rcases behind hk with front | back
    · exact .inl (by omega)
    · exact .inr (by omega)

end CompilationUnit.LaidOut

end JavaRefactor
