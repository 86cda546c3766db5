import JavaRefactor.Proofs.Layout.LineStart
import JavaRefactor.Proofs.Rule.Comments
import JavaRefactor.Proofs.Unit.Indentation

/-!
# Statements on even lines

Where no comments stand between the statements of a run, the text of the run is their own texts,
each behind the same line break (`EvenLines`).  Then the line of a statement starts with the line
break in front of it (`Span.wholeLine_eq`) and has the indentation of all the others
(`CompilationUnit.lineIndent_eq`).  Statements of a laid-out block that match a template stand on
even lines (`BlockTemplate.exists_evenLines`).
-/

namespace JavaRefactor

open Text

/-! ### Lines of a source -/

/-- A line break with the blanks that indent the next line. -/
def IsLineBreak (line : List Char) (indent : String) : Prop :=
  line = '\n' :: indent.toList ∧ ∀ c ∈ indent.toList, CompilationUnit.isIndentation c = true

/-- The whole line of a span starts with the line break in front of it. -/
theorem Span.wholeLine_eq {source indent : String} {settled line more : List Char} {span : Span}
    (hline : IsLineBreak line indent) (split : source.toList = settled ++ (line ++ more))
    (starts : span.start = byteLength settled + byteLength line) :
    span.wholeLine source = ⟨byteLength settled, span.stop⟩ := by
  obtain ⟨rfl, blanks⟩ := hline
  have before : Text.slice? source.toList 0 span.start
      = some (settled ++ '\n' :: indent.toList) := by
    have middle := slice?_middle [] (settled ++ '\n' :: indent.toList) more
    rw [byteLength_nil, Nat.zero_add, byteLength_append, ← starts, List.nil_append,
      List.append_assoc, ← split] at middle
    exact middle
  have passed : (settled ++ '\n' :: indent.toList).reverse.dropWhile CompilationUnit.isIndentation
      = '\n' :: settled.reverse := by
    rw [List.reverse_append, List.reverse_cons, List.append_assoc,
      List.dropWhile_append_of_pos fun c hc => blanks c (List.mem_reverse.mp hc)]
    rfl
  rw [wholeLine, before, Option.getD_some, passed]
  exact congrArg (Span.mk · span.stop) (byteLength_reverse settled)

/-- The indentation of a line is what stands between its line break and its text. -/
theorem CompilationUnit.lineIndent_eq {u : CompilationUnit} {indent : String}
    {settled line more : List Char} {c : Char} (hline : IsLineBreak line indent)
    (split : u.source.toList = settled ++ (line ++ c :: more)) (flush : isIndentation c = false) :
    u.lineIndent (byteLength settled + byteLength line) = indent := by
  obtain ⟨rfl, blanks⟩ := hline
  have noBreak : ∀ c ∈ indent.toList.reverse, (c != '\n') = true := by
    intro c hc
    rw [bne_iff_ne]
    rintro rfl
    exact absurd (blanks _ (List.mem_reverse.mp hc)) (by decide)
  have lineStart : ((settled ++ '\n' :: indent.toList).reverse.takeWhile (· != '\n')).reverse
      = indent.toList := by
    rw [List.reverse_append, List.reverse_cons, List.append_assoc,
      List.takeWhile_append_of_pos noBreak]
    simp
  have text : (indent.toList ++ c :: more).takeWhile isIndentation = indent.toList := by
    rw [List.takeWhile_append_of_pos blanks, List.takeWhile_cons, flush, if_neg Bool.false_ne_true,
      List.append_nil]
  rw [lineIndent, split, ← List.append_assoc, ← byteLength_append, takeBytes_left, dropBytes_left,
    lineStart, text, String.ofList_toList]

/-! ### Statements on even lines -/

/-- Statements behind an offset whose texts, each behind the same line break, make up a text.  None
of their own texts starts with a blank. -/
def EvenLines (line : List Char) (start : Nat) : List Stmt → List Char → Prop
  | [], cs => cs = []
  | s :: ss, cs => ∃ own rest, cs = line ++ (own ++ rest) ∧
    s.span = ⟨start + byteLength line, start + byteLength line + byteLength own⟩ ∧
    (∃ c more, own = c :: more ∧ CompilationUnit.isIndentation c = false) ∧
    EvenLines line s.span.stop ss rest

namespace EvenLines

variable {source indent : String} {settled line cs post : List Char} {start : Nat} {ss : List Stmt}

/-- The first statement stands behind a line break, and the others follow it. -/
theorem size_cons {s : Stmt} (h : EvenLines line start (s :: ss) cs) :
    ∃ own rest, cs = line ++ (own ++ rest) ∧ s.span.start = start + byteLength line ∧
      s.span.stop = start + byteLength (line ++ own) ∧
      start + byteLength cs = s.span.stop + byteLength rest ∧
      (∃ c more, own = c :: more ∧ CompilationUnit.isIndentation c = false) ∧
      EvenLines line s.span.stop ss rest := by
  obtain ⟨own, rest, rfl, span, flush, h⟩ := h
  refine ⟨own, rest, rfl, by rw [span], ?_, ?_, flush, h⟩
  · rw [span, byteLength_append, Nat.add_assoc]
  · rw [span, byteLength_append, byteLength_append]
    dsimp only
    omega

/-- The statements stand on lines of their own. -/
theorem stmtLines (h : EvenLines line start ss cs) (hline : IsLineBreak line indent)
    (split : source.toList = settled ++ (cs ++ post)) (hstart : byteLength settled = start) :
    StmtLines source start (start + byteLength cs) ss := by
  induction ss generalizing start cs settled with
  | nil => exact Nat.le_add_right _ _
  | cons s ss ih =>
    obtain ⟨own, rest, rfl, first, last, total, -, h⟩ := h.size_cons
    have gap : TextAt source start (String.ofList line) := by
      refine ⟨String.ofList settled, String.ofList (own ++ (rest ++ post)), ?_, ?_⟩
      · rw [← String.toList_inj, split]
        simp
      · rw [← byteLength_toList, String.toList_ofList, hstart]
    have behind : byteLength (settled ++ (line ++ own)) = s.span.stop := by
      rw [byteLength_append, hstart, last]
    refine ⟨⟨_, gap, ?_, ?_⟩, ?_, ?_⟩
    · rw [String.toList_ofList, hline.1]
      exact List.mem_cons_self
    · rw [first, ← byteLength_toList, String.toList_ofList]
    · rw [first, last, byteLength_append]
      omega
    · rw [total]
      refine ih h ?_ behind
      rw [split]
      simp only [List.append_assoc]

/-- The statements lie within the text, and the last one ends with it. -/
theorem bounds (h : EvenLines line start ss cs) :
    (∀ t ∈ ss, start + byteLength line ≤ t.span.start ∧ t.span.stop ≤ start + byteLength cs) ∧
      ∀ last, ss.getLast? = some last → last.span.stop = start + byteLength cs := by
  induction ss generalizing start cs with
  | nil => exact ⟨fun t ht => absurd ht List.not_mem_nil, fun last hlast => absurd hlast (by simp)⟩
  | cons s ss ih =>
    obtain ⟨own, rest, rfl, first, last, total, -, h⟩ := h.size_cons
    obtain ⟨inside, ends⟩ := ih h
    rw [byteLength_append] at last
    refine ⟨fun t ht => ?_, fun t ht => ?_⟩
    · rcases List.mem_cons.mp ht with rfl | ht
      · omega
      · have := inside t ht
        omega
    · cases ss with
      | nil =>
        obtain rfl : rest = [] := h
        rw [total, ← Option.some.inj ht]
        rfl
      | cons next ss =>
        rw [total]
        exact ends t (by rwa [List.getLast?_cons_cons] at ht)

/-- The span of the statements goes from behind the first line break to the end of the text. -/
theorem runSpan_eq (h : EvenLines line start ss cs) (nonempty : ss ≠ []) :
    Stmt.runSpan? ss = some ⟨start + byteLength line, start + byteLength cs⟩ := by
  obtain ⟨inside, ends⟩ := h.bounds
  cases ss with
  | nil => exact absurd rfl nonempty
  | cons s ss =>
    obtain ⟨last, hlast⟩ : ∃ last, (s :: ss).getLast? = some last :=
      ⟨_, List.getLast?_eq_some_getLast nonempty⟩
    have first := inside s List.mem_cons_self
    have stop := ends last hlast
    have later := inside last (List.mem_of_getLast? hlast)
    obtain ⟨-, -, -, start_eq, -⟩ := h.size_cons
    rw [Stmt.runSpan?, hlast, List.head?_cons]
    show some (s.span.merge last.span) = _
    rw [Span.merge, Nat.min_eq_left (by omega), Nat.max_eq_right (by omega), start_eq, stop]

end EvenLines

/-! ### Runs of laid-out statements -/

open Layout

/-- Laid-out statements without comments between them stand on even lines, behind the comments
above the first one. -/
theorem EvenLines.of_laidAt {source : String} (small : source.utf8ByteSize < Span.maxOffset)
    {ind : Indent} {s : Stmt} {ss back : List Stmt} {start : Nat}
    (text : TextAt source start (textOf (Stmt.layoutLines none ind (s :: (ss ++ back)))))
    (laid : List.Forall₂ (fun p s => SyntaxNode.LaidAt p.1 p.2 (.stmt s))
      (places start (Stmt.layoutLines none ind (s :: (ss ++ back)))) (s :: (ss ++ back)))
    (bare : ∀ t ∈ ss, t.comments = [])
    (written : ∀ t ∈ s :: ss, ∀ e ∈ t.exprs, e.isWritten = true) :
    ∃ cs more,
      EvenLines ind.newline.toList (start + (textOf (s.lead ind)).utf8ByteSize) (s :: ss) cs ∧
      textOf (Stmt.layoutLines none ind (s :: (ss ++ back)))
        = textOf (s.lead ind) ++ (String.ofList cs ++ more) := by
  induction ss generalizing s start with
  | nil =>
    obtain ⟨-, span, -, -⟩ := Stmt.laid_layoutLines_cons small text laid
    obtain ⟨nonempty, flush⟩ := Stmt.isFlush_parts (written s List.mem_cons_self) ind
    refine ⟨ind.newline.toList ++ ((textOf (s.parts ind false)).toList ++ []),
      textOf (Stmt.layoutLines none ind back),
      ⟨_, [], rfl, ?_, flush.exists_cons nonempty, rfl⟩, ?_⟩
    · rw [span, byteLength_toList, byteLength_toList]
    · rw [List.nil_append, Stmt.textOf_layoutLines_cons]
      simp only [String.ofList_append, String.ofList_toList, String.append_assoc, List.append_nil]
  | cons t ss ih =>
    obtain ⟨-, span, text, laid⟩ := Stmt.laid_layoutLines_cons small text laid
    obtain ⟨nonempty, flush⟩ := Stmt.isFlush_parts (written s List.mem_cons_self) ind
    -- without comments above it, a line starts right at its statement
    have silent : textOf (t.lead ind) = "" := by
      rw [Stmt.lead, bare t List.mem_cons_self]
      rfl
    obtain ⟨cs, more, h, rest⟩ := ih text laid (fun x hx => bare x (List.mem_cons_of_mem t hx))
      fun x hx => written x (List.mem_cons_of_mem s hx)
    rw [silent] at h rest
    refine ⟨ind.newline.toList ++ ((textOf (s.parts ind false)).toList ++ cs), more,
      ⟨_, cs, rfl, ?_, flush.exists_cons nonempty, h⟩, ?_⟩
    · rw [span, byteLength_toList, byteLength_toList]
    · rw [Stmt.textOf_layoutLines_cons, List.cons_append, rest]
      simp only [String.ofList_append, String.ofList_toList, String.append_assoc,
        String.empty_append]

/-- Statements behind others are laid out on the lines behind them. -/
theorem Stmt.exists_laid_append {source : String} (small : source.utf8ByteSize < Span.maxOffset)
    {ind : Indent} {front ss : List Stmt} {start : Nat}
    (text : TextAt source start (textOf (Stmt.layoutLines none ind (front ++ ss))))
    (laid : List.Forall₂ (fun p s => SyntaxNode.LaidAt p.1 p.2 (.stmt s))
      (places start (Stmt.layoutLines none ind (front ++ ss))) (front ++ ss)) :
    ∃ first, TextAt source first (textOf (Stmt.layoutLines none ind ss)) ∧
      List.Forall₂ (fun p s => SyntaxNode.LaidAt p.1 p.2 (.stmt s))
        (places first (Stmt.layoutLines none ind ss)) ss := by
  induction front generalizing start with
  | nil => exact ⟨start, text, laid⟩
  | cons s front ih =>
    obtain ⟨-, -, text, laid⟩ := Stmt.laid_layoutLines_cons small text laid
    exact ih text laid

/-- Statements of a block without comments between them stand on even lines. -/
theorem CompilationUnit.LaidOut.exists_evenLines {u : CompilationUnit} (h : u.LaidOut)
    (small : u.source.utf8ByteSize < Span.maxOffset) {i : StmtInfo} {front ss back : List Stmt}
    {s : Stmt} (hblock : Stmt.block i (front ++ s :: (ss ++ back)) ∈ u.stmts)
    (bare : ∀ t ∈ ss, t.comments = [])
    (written : ∀ t ∈ s :: ss, ∀ e ∈ t.exprs, e.isWritten = true) :
    ∃ indent settled line cs post, IsLineBreak line indent ∧
      u.source.toList = settled ++ (cs ++ post) ∧
      EvenLines line (byteLength settled) (s :: ss) cs := by
  obtain ⟨start, ind, inHeader, base, laid, set⟩ := h.indentedAt small hblock
  obtain ⟨blanks, line, indents⟩ : ∃ blanks, ind.deeper.newline.toList = '\n' :: blanks ∧
      ∀ c ∈ blanks, isIndentation c = true := Indent.exists_blanks base
  obtain ⟨first, text, laid⟩ : ∃ first,
      TextAt u.source first (textOf (Stmt.layoutLines none ind.deeper (s :: (ss ++ back)))) ∧
        List.Forall₂ (fun p s => SyntaxNode.LaidAt p.1 p.2 (.stmt s))
          (Layout.places first (Stmt.layoutLines none ind.deeper (s :: (ss ++ back))))
          (s :: (ss ++ back)) := by
    -- the block is laid out from its first statement on, which need not be the first one matched
    cases hfront : front ++ s :: (ss ++ back) with
    | nil => exact absurd hfront (by simp)
    | cons t ts =>
      rw [hfront] at laid set
      have lines := laid.block_lines
      rw [Stmt.parts_block_cons] at set
      have text := ((set.parts.append small).2.append small).1.text
      rw [← hfront] at lines text
      exact Stmt.exists_laid_append small text lines
  obtain ⟨cs, more, even, whole⟩ := EvenLines.of_laidAt small text laid bare written
  rw [whole] at text
  obtain ⟨settled, post, split, size⟩ := text.append.2
  refine ⟨String.ofList blanks, settled.toList, ind.deeper.newline.toList, cs,
    more.toList ++ post.toList, ⟨?_, ?_⟩, ?_, ?_⟩
  · rw [line, String.toList_ofList]
  · rw [String.toList_ofList]
    exact indents
  · rw [split]
    simp only [String.toList_append, String.toList_ofList, List.append_assoc]
  · rw [byteLength_toList, size]
    exact even

/-- The expressions of a statement inside another one are inside that one. -/
theorem Stmt.mem_exprs_of_mem_stmts {s t : Stmt} (ht : t ∈ s.stmts) {e : Expr} (he : e ∈ t.exprs) :
    e ∈ s.exprs := by
  induction s using Stmt.induction with
  | step s ih =>
    rw [Stmt.stmts_eq] at ht
    rcases List.mem_cons.mp ht with rfl | ht
    · exact he
    · obtain ⟨part, hpart, ht⟩ := List.mem_flatMap.mp ht
      rw [Stmt.exprs_eq]
      cases part with
      | expr x => exact absurd ht List.not_mem_nil
      | stmt c => exact List.mem_flatMap.mpr ⟨.stmt c, hpart, ih c hpart ht⟩

/-- The expressions of a statement of a unit are among those of the unit. -/
theorem CompilationUnit.mem_exprs_of_mem_stmts {u : CompilationUnit} {s : Stmt} (hs : s ∈ u.stmts)
    {e : Expr} (he : e ∈ s.exprs) : e ∈ u.exprs := by
  obtain ⟨t, ht, hs⟩ := List.mem_flatMap.mp hs
  obtain ⟨m, hm, hs⟩ := List.mem_flatMap.mp hs
  refine List.mem_flatMap.mpr ⟨t, ht, List.mem_append_right _ ?_⟩
  exact List.mem_flatMap.mpr ⟨m, hm, Stmt.mem_exprs_of_mem_stmts hs he⟩

/-- Statements of a laid-out block that match a template stand on even lines. -/
theorem BlockTemplate.exists_evenLines {t : BlockTemplate} {c : MatchContext} {i : StmtInfo}
    {front run back : List Stmt} {b : Bindings} (laidOut : c.unit.LaidOut)
    (small : c.unit.source.utf8ByteSize < Span.maxOffset)
    (written : ∀ e ∈ c.unit.exprs, e.isWritten = true)
    (hblock : Stmt.block i (front ++ (run ++ back)) ∈ c.unit.stmts)
    (matched : t.matchRun? c run = some b) :
    run ≠ [] ∧ ∃ indent settled line cs post, IsLineBreak line indent ∧
      c.unit.source.toList = settled ++ (cs ++ post) ∧
      EvenLines line (byteLength settled) run cs := by
  cases run with
  | nil =>
    obtain ⟨span, none, -⟩ := runSpan?_of_matchRun? matched
    exact absurd none (by simp [Stmt.runSpan?])
  | cons s ss =>
    refine ⟨List.cons_ne_nil s ss, laidOut.exists_evenLines small hblock ?_ ?_⟩
    · obtain ⟨start, lines⟩ := laidOut.commentedLines small (CompilationUnit.stmt_mem_nodes hblock)
      obtain ⟨first, -, lines⟩ := lines.of_append
      intro t ht
      by_contra commented
      rw [matchRun?_eq_none lines.left (.inl ⟨t, ht, commented⟩)] at matched
      cases matched
    · intro t ht e he
      have inner : e ∈ (Stmt.block i (front ++ (s :: ss ++ back))).exprs := by
        rw [Stmt.exprs_eq]
        refine List.mem_flatMap.mpr ⟨.stmt t, List.mem_map_of_mem ?_, he⟩
        exact List.mem_append_right _ (List.mem_append_left _ ht)
      exact written e (CompilationUnit.mem_exprs_of_mem_stmts hblock inner)

end JavaRefactor
