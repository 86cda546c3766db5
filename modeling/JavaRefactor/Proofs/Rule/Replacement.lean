import JavaRefactor.Proofs.Rule.EvenLines

/-!
# What a replacement of statements writes

A replacement edits the statements of a run one by one: it writes statements over statements, then
deletes lines that are left over, or writes several statements over the last one.  In each case the
text of the run becomes the new statements behind its own line breaks
(`BlockTemplate.replaceEach_splice`), which is how statements are rendered together
(`Stmt.toList_renderAll`).
-/

namespace JavaRefactor

open Layout Text

/-! ### Rendered statements -/

/-- Statements as they are rendered, each behind a line break. -/
def renderLines (source indent : String) (ss : List Stmt) : List Char :=
  ss.flatMap fun s => '\n' :: indent.toList
    ++ (textOf (s.layout (some source) ⟨indent, 0⟩ false)).toList

/-- Statements that are rendered together stand behind equal line breaks. -/
theorem Stmt.toList_renderAll (source indent : String) {ss : List Stmt} (nonempty : ss ≠ []) :
    '\n' :: indent.toList ++ (Stmt.renderAll source indent ss).toList
      = renderLines source indent ss := by
  have newline : (Indent.mk indent 0).newline.toList = '\n' :: indent.toList := by
    simp [Indent.newline]
  induction ss with
  | nil => exact absurd rfl nonempty
  | cons s ss ih =>
    rw [renderLines, List.flatMap_cons]
    cases ss with
    | nil => simp [Stmt.renderAll, separated]
    | cons t ts =>
      rw [← renderLines, ← ih (List.cons_ne_nil t ts), Stmt.renderAll, Stmt.renderAll,
        List.map_cons, List.map_cons, separated, textOf_append, textOf,
        toText, String.toList_append, String.toList_append, newline]
      · simp only [List.append_assoc]
      · exact fun h => absurd h (List.cons_ne_nil _ _)

/-! ### Edits of a run -/

section

variable {c : ExpansionContext} {indent : String} {settled line cs post : List Char} {start : Nat}

/-- Deleting statements with their lines leaves what stands behind them. -/
theorem EvenLines.splice_deletions {source : String} {ss : List Stmt}
    (h : EvenLines line start ss cs) (hline : IsLineBreak line indent)
    (split : source.toList = settled ++ (cs ++ post)) (hstart : byteLength settled = start) :
    EditQueue.splice source.utf8ByteSize start (cs ++ post)
      (ss.map fun s => .deletion (s.span.wholeLine source)) = post := by
  induction ss generalizing start cs settled with
  | nil =>
    obtain rfl : cs = [] := h
    rfl
  | cons s ss ih =>
    obtain ⟨own, rest, rfl, first, last, total, -, h⟩ := h.size_cons
    have behind : byteLength (settled ++ (line ++ own)) = s.span.stop := by
      rw [byteLength_append, hstart, last]
    have size : s.span.stop ≤ source.utf8ByteSize := by
      rw [← byteLength_toList, split, byteLength_append, byteLength_append, hstart]
      omega
    have parts : settled ++ (line ++ (own ++ rest) ++ post)
        = settled ++ (line ++ own) ++ (rest ++ post) := by
      simp only [List.append_assoc]
    have whole : s.span.wholeLine source = ⟨start, s.span.stop⟩ := by
      have inside : source.toList = settled ++ (line ++ (own ++ (rest ++ post))) := by
        rw [split]
        simp only [List.append_assoc]
      rw [← hstart]
      exact Span.wholeLine_eq hline inside (hstart ▸ first)
    have front : line ++ (own ++ rest) ++ post = [] ++ (line ++ own ++ (rest ++ post)) := by
      simp only [List.append_assoc, List.nil_append]
    rw [List.map_cons, whole, front, EditQueue.splice_cons (Nat.add_zero _) last.symm size]
    exact ih h (split.trans parts) behind

/-- An edit of the first statement leaves the line break in front of it, and the splicing goes on
behind the statement. -/
theorem EvenLines.splice_cons {source : String} {s : Stmt} {ss : List Stmt}
    (h : EvenLines line start (s :: ss) cs) (split : source.toList = settled ++ (cs ++ post))
    (hstart : byteLength settled = start) :
    ∃ rest, (∃ settled', source.toList = settled' ++ (rest ++ post) ∧
        byteLength settled' = s.span.stop) ∧
      (∀ text es, EditQueue.splice source.utf8ByteSize start (cs ++ post) (⟨s.span, text⟩ :: es)
        = line ++ text.toList
          ++ EditQueue.splice source.utf8ByteSize s.span.stop (rest ++ post) es) ∧
      EvenLines line s.span.stop ss rest := by
  obtain ⟨own, rest, rfl, first, last, total, -, h⟩ := h.size_cons
  have size : s.span.stop ≤ source.utf8ByteSize := by
    rw [← byteLength_toList, split, byteLength_append, byteLength_append, hstart]
    omega
  rw [byteLength_append] at last
  refine ⟨rest, ⟨settled ++ (line ++ own), ?_, ?_⟩, fun text es => ?_, h⟩
  · rw [split]
    simp only [List.append_assoc]
  · rw [byteLength_append, byteLength_append, hstart, last]
  · have parts : line ++ (own ++ rest) ++ post = line ++ (own ++ (rest ++ post)) := by
      simp only [List.append_assoc]
    have under : s.span.start + byteLength own = s.span.stop := by omega
    rw [parts, EditQueue.splice_cons first.symm under size, List.append_assoc]

/-- Patterns are expanded one after the other, each with the imports of those before it. -/
theorem StmtPattern.run_expandEach_cons {p : StmtPattern} {ps : List StmtPattern}
    {pending pending' : PendingImports} {ss : List Stmt}
    (run : (expandEach c (p :: ps)).run pending = (.ok ss, pending')) :
    ∃ s rest middle, (expandEach c [p]).run pending = (.ok [s], middle) ∧
      (expandEach c ps).run middle = (.ok rest, pending') ∧ ss = s :: rest := by
  rw [expandEach, Expanding.run_bind] at run
  split at run
  · rename_i s middle first
    rw [Expanding.run_bind] at run
    split at run
    · rename_i rest last others
      obtain ⟨same, rfl⟩ := Prod.mk.inj run
      refine ⟨s, rest, middle, ?_, others, (Except.ok.inj same).symm⟩
      rw [expandEach, Expanding.run_bind, first]
      rfl
    · exact absurd (congrArg Prod.fst run) (by simp)
  · exact absurd (congrArg Prod.fst run) (by simp)

namespace BlockTemplate

/-- The edit of a statement on an even line writes the new statements with its indentation. -/
theorem run_replaceStmt {ps : List StmtPattern} {pending pending' : PendingImports}
    {ss targets : List Stmt} {target : Stmt} (h : EvenLines line start (target :: targets) cs)
    (hline : IsLineBreak line indent) (split : c.unit.source.toList = settled ++ (cs ++ post))
    (hstart : byteLength settled = start)
    (run : (StmtPattern.expandEach c ps).run pending = (.ok ss, pending')) :
    (replaceStmt c ps target).run pending
      = (.ok ⟨target.span, Stmt.renderAll c.unit.source indent ss⟩, pending') := by
  obtain ⟨own, rest, rfl, first, -, -, ⟨x, more, rfl, flush⟩, -⟩ := h.size_cons
  have indented : c.unit.lineIndent target.span.start = indent := by
    have inside : c.unit.source.toList
        = settled ++ (line ++ x :: (more ++ (rest ++ post))) := by
      rw [split]
      simp only [List.append_assoc, List.cons_append]
    rw [first, ← hstart]
    exact CompilationUnit.lineIndent_eq hline inside flush
  rw [replaceStmt, Expanding.run_bind, run, indented]
  rfl

/-- Replacing statements writes what the patterns become behind equal line breaks, and nothing else
changes. -/
theorem replaceEach_splice {ps : List StmtPattern} {targets ss : List Stmt}
    {pending pending' : PendingImports} (h : EvenLines line start targets cs)
    (nonempty : targets ≠ []) (hline : IsLineBreak line indent)
    (split : c.unit.source.toList = settled ++ (cs ++ post)) (hstart : byteLength settled = start)
    (run : (StmtPattern.expandEach c ps).run pending = (.ok ss, pending')) :
    ∃ edits, (replaceEach c ps targets).run pending = (.ok edits, pending') ∧
      EditQueue.splice c.unit.source.utf8ByteSize start (cs ++ post) edits
        = renderLines c.unit.source indent ss ++ post := by
  -- With the recursion of the replacement: each target takes one new statement, the last one all
  -- that are left, and where none is left the lines of the others are deleted.
  induction ps, targets using replaceEach.induct generalizing start cs settled pending ss with
  | case1 targets =>
    obtain ⟨none, rfl⟩ := Prod.mk.inj run
    obtain rfl := Except.ok.inj none
    exact ⟨_, rfl, h.splice_deletions hline split hstart⟩
  | case2 p ps => exact absurd rfl nonempty
  | case3 p ps last =>
    have edit := run_replaceStmt h hline split hstart run
    obtain ⟨s, others, -, -, -, rfl⟩ := StmtPattern.run_expandEach_cons run
    refine ⟨[⟨last.span, Stmt.renderAll c.unit.source indent (s :: others)⟩], ?_, ?_⟩
    · rw [replaceEach, Expanding.run_bind, edit]
      rfl
    · obtain ⟨rest, -, spliced, none⟩ := h.splice_cons split hstart
      obtain rfl : rest = [] := none
      rw [spliced, hline.1, Stmt.toList_renderAll _ _ (List.cons_ne_nil s others)]
      rfl
  | case4 p ps target next targets ih =>
    obtain ⟨s, others, middle, one, following, rfl⟩ := StmtPattern.run_expandEach_cons run
    have edit := run_replaceStmt h hline split hstart one
    obtain ⟨rest, ⟨settled', split', behind⟩, spliced, h⟩ := h.splice_cons split hstart
    obtain ⟨edits, replaced, text⟩ := ih h (List.cons_ne_nil next targets) split' behind following
    refine ⟨⟨target.span, Stmt.renderAll c.unit.source indent [s]⟩ :: edits, ?_, ?_⟩
    · rw [replaceEach, Expanding.run_bind, edit]
      dsimp only
      rw [Expanding.run_bind, replaced]
      rfl
    · have both : renderLines c.unit.source indent (s :: others)
          = renderLines c.unit.source indent [s] ++ renderLines c.unit.source indent others := by
        simp [renderLines]
      rw [spliced, text, hline.1, Stmt.toList_renderAll _ _ (List.cons_ne_nil s []), both,
        List.append_assoc]

end BlockTemplate

end

/-! ### Fixes of blocks -/

/-- The edits of a chain are applied in their order, and do not conflict. -/
theorem EditQueue.applyChecked_of_chain {source : String} {start stop : Nat} {es : List TextEdit}
    (h : SpanChain start stop (es.map TextEdit.span)) :
    (EditQueue.mk es).applyChecked source
      = .ok (String.ofList (splice source.utf8ByteSize 0 source.toList es)) := by
  have pairs := List.pairwise_map.mp h.pairwise
  have forward : ∀ e ∈ es, e.span.start ≤ e.span.stop := fun e he =>
    (h.bounds_of_mem (List.mem_map_of_mem he)).2.1
  have none : (EditQueue.mk es).conflict? = none :=
    conflict?_eq_none (pairs.imp fun before => .inl before) forward
  have ordered : (EditQueue.mk es).ordered = es := by
    refine List.mergeSort_of_pairwise ?_
    refine pairs.imp_of_mem fun {a b} ha hb before => ?_
    have := forward a ha
    have := forward b hb
    rw [TextEdit.le_iff]
    omega
  rw [applyChecked, none, apply, ordered]

/-- The edits of statements on even lines write what the patterns become behind equal line
breaks. -/
theorem BlockTemplate.replaceEach_applied {c : ExpansionContext} {indent : String}
    {settled line cs post : List Char} {ps : List StmtPattern} {targets ss : List Stmt}
    {pending pending' : PendingImports} (h : EvenLines line (byteLength settled) targets cs)
    (nonempty : targets ≠ []) (hline : IsLineBreak line indent)
    (split : c.unit.source.toList = settled ++ (cs ++ post))
    (run : (StmtPattern.expandEach c ps).run pending = (.ok ss, pending')) :
    ∃ edits, (replaceEach c ps targets).run pending = (.ok edits, pending') ∧
      (EditQueue.mk edits).applyChecked c.unit.source
        = .ok (String.ofList (settled ++ (renderLines c.unit.source indent ss ++ post))) := by
  obtain ⟨edits, replaced, spliced⟩ := replaceEach_splice h nonempty hline split rfl run
  have size : byteLength settled + byteLength cs ≤ c.unit.source.utf8ByteSize := by
    rw [← byteLength_toList, split, byteLength_append, byteLength_append]
    omega
  have chain : SpanChain (0 + byteLength settled) c.unit.source.utf8ByteSize
      (edits.map TextEdit.span) := by
    rw [Nat.zero_add]
    exact (replaceEach_ensures ps (h.stmtLines hline split rfl) _ _ _ replaced).mono_stop size
  refine ⟨edits, replaced, ?_⟩
  rw [EditQueue.applyChecked_of_chain chain, split, EditQueue.splice_append chain, Nat.zero_add,
    spliced]

/-- A replacement of statements does not depend on how many statements there are.  In a laid-out
unit of less than the longest recordable text, whose expressions are all printed as some text and
whose names have no blanks, let a template match statements that follow each other in a block.
Replacing them with a template that can be expanded writes all its statements, rendered with the
indentation of the line, over the text from the first matched statement to the last one.  If the
template has none, the lines go with the line break in front of each.  Nothing else changes. -/
theorem BlockTemplate.replace_renderAll (package : Option String) (imports : List Import)
    (types : List TypeDecl) (symbols : SymbolTable) (table : ClassTable)
    (small : (textOf (layoutUnit package imports types)).utf8ByteSize < Span.maxOffset) :
    let u := CompilationUnit.ofDeclarations package imports types symbols
    let c : MatchContext := ⟨u, table⟩
    (∀ e ∈ u.exprs, e.isWritten = true) →
    ∀ (before after : BlockTemplate) (i : StmtInfo) (front run back : List Stmt) (b : Bindings)
      (policy : ImportPolicy) (ss : List Stmt) (needed : PendingImports),
      Stmt.block i (front ++ (run ++ back)) ∈ u.stmts →
      before.matchRun? c run = some b →
      (StmtPattern.expandEach (c.expansion b policy) after.stmts).run .empty = (.ok ss, needed) →
      ∃ edits pre old post,
        after.replace c ⟨front.length, run, b⟩ policy = .ok ⟨edits, needed⟩ ∧
        u.source = pre ++ old ++ post ∧
        Stmt.runSpan? run = some ⟨pre.utf8ByteSize, (pre ++ old).utf8ByteSize⟩ ∧
        let indent := u.lineIndent pre.utf8ByteSize
        (0 < after.width → (EditQueue.mk edits).applyChecked u.source
          = .ok (pre ++ Stmt.renderAll u.source indent ss ++ post)) ∧
        (after.width = 0 → ∃ kept, pre = kept ++ "\n" ++ indent ∧
          (EditQueue.mk edits).applyChecked u.source = .ok (kept ++ post)) := by
  intro u c written before after i front run back b policy ss needed hblock matched expanded
  have laidOut : u.LaidOut :=
    (CompilationUnit.ofDeclarations_laidOut package imports types symbols).1
  -- the text in front of the run, the blanks of its line, and the run with even lines
  obtain ⟨nonempty, indent, settled, line, cs, post, hline, split, even⟩ :=
    BlockTemplate.exists_evenLines (c := c) laidOut small written hblock matched
  obtain ⟨edits, replaced, applied⟩ :=
    replaceEach_applied (c := c.expansion b policy) even nonempty hline split expanded
  change _ = Except.ok (String.ofList (settled ++ (renderLines u.source indent ss ++ post)))
    at applied
  obtain ⟨s, rest, rfl⟩ := List.exists_cons_of_ne_nil nonempty
  have span := even.runSpan_eq nonempty
  obtain ⟨own, behind, rfl, first, -, -, ⟨x, more, rfl, flush⟩, -⟩ := even.size_cons
  have source : u.source.toList = settled ++ (line ++ x :: (more ++ (behind ++ post))) := by
    rw [split]
    simp only [List.append_assoc, List.cons_append]
  -- the line that the run starts in is indented by the blanks of the first statement
  have indented := CompilationUnit.lineIndent_eq hline source flush
  have size (cs : List Char) : (String.ofList cs).utf8ByteSize = byteLength cs := by
    rw [← byteLength_toList, String.toList_ofList]
  refine ⟨edits, String.ofList (settled ++ line), String.ofList (x :: more ++ behind),
    String.ofList post, ?_, ?_, ?_, ?_⟩
  · rw [replace, replaced]
  · rw [← String.toList_inj, source]
    simp
  · rw [span, ← String.ofList_append, size, size]
    simp only [byteLength_append, Nat.add_assoc]
  · rw [size, byteLength_append, indented]
    refine ⟨fun some_left => ?_, fun none_left => ⟨String.ofList settled, ?_, ?_⟩⟩
    · have written : ss ≠ [] := by
        obtain ⟨p, ps, patterns⟩ := List.exists_cons_of_length_pos some_left
        rw [patterns] at expanded
        obtain ⟨s, others, -, -, -, rfl⟩ := StmtPattern.run_expandEach_cons expanded
        exact List.cons_ne_nil s others
      refine applied.trans (congrArg Except.ok ?_)
      rw [← Stmt.toList_renderAll _ _ written, ← hline.1]
      simp only [String.ofList_append, String.ofList_toList, String.append_assoc]
    · rw [hline.1, ← String.toList_inj]
      simp
    · rw [List.eq_nil_of_length_eq_zero none_left] at expanded
      obtain ⟨nothing, -⟩ := Prod.mk.inj expanded
      obtain rfl := Except.ok.inj nothing
      exact applied.trans (congrArg Except.ok String.ofList_append)

/-! ### A replacement that joins statements, and one that is indented unevenly -/

/-- A class with a method `public void m()` of some statements. -/
private def bodyClass (stmts : List Stmt) : TypeDecl where
  name := "A"
  fields := []
  methods := [⟨"m", [], .primitiveType (.ofType (.primitive .void)) .void, [],
    .block .synthetic stmts, false, .synthetic⟩]
  span := .synthetic

/-- A template of statements without arguments. -/
private def plainTemplate (stmts : List StmtPattern) : BlockTemplate :=
  ⟨⟨{}, .empty, []⟩, stmts⟩

/-- The statements `x; ;`. -/
private def nameStmts : List Stmt :=
  [.expr .synthetic (.ident (.ofType (.primitive .int)) "x" none), .empty .synthetic]

private def nameAt (span : Span) : Expr := .ident ⟨.primitive .int, span⟩ "x" none

/-- The tree of the example whose body is made of names. -/
private theorem types_nameStmts :
    (CompilationUnit.ofDeclarations none [] [bodyClass nameStmts] .empty).types
      = [{ bodyClass [] with
          methods := [⟨"m", [], .primitiveType ⟨.primitive .void, ⟨28, 32⟩⟩ .void, [],
            .block ⟨⟨37, 65⟩, []⟩ [.expr ⟨⟨47, 49⟩, []⟩ (nameAt ⟨47, 48⟩), .empty ⟨⟨58, 59⟩, []⟩],
            false, ⟨21, 65⟩⟩]
          span := ⟨0, 67⟩ }] := by
  have recorded : nodeSpansOf 0 (layoutUnit none [] [bodyClass nameStmts])
      = [⟨0, 67⟩, ⟨21, 65⟩, ⟨28, 32⟩, ⟨37, 65⟩, ⟨47, 49⟩, ⟨47, 48⟩, ⟨58, 59⟩] := by
    decide +kernel
  change (threadEach TypeDecl.place [bodyClass nameStmts]
    (nodeSpansOf 0 (layoutUnit none [] [bodyClass nameStmts]))).1 = _
  rw [recorded]
  simp [bodyClass, nameStmts, nameAt, threadEach, TypeDecl.place, MethodDecl.place, Stmt.place_eq,
    StmtPart.place, Stmt.children, Stmt.withSpan, Stmt.withInfo, Stmt.withParts, Stmt.comments,
    Stmt.info, StmtInfo.synthetic, StmtPart.exprs, StmtPart.stmts, Expr.place_eq, Expr.children,
    Expr.withChildren, Expr.withSpan, Expr.withInfo, Expr.type, Expr.info, NodeInfo.ofType]

/-- The statements `x; ;` become `return x;`. -/
theorem replace_renderAll_return :
    (textOf (layoutUnit none [] [bodyClass nameStmts])).utf8ByteSize < Span.maxOffset ∧
      let u := CompilationUnit.ofDeclarations none [] [bodyClass nameStmts] .empty
      let c : MatchContext := ⟨u, .rootOnly⟩
      let before := plainTemplate [.expr (.free "v"), .empty]
      let after := plainTemplate [.ret (some (.free "v"))]
      let run : List Stmt := [.expr ⟨⟨47, 49⟩, []⟩ (nameAt ⟨47, 48⟩), .empty ⟨⟨58, 59⟩, []⟩]
      let b : Bindings := { free := [("v", nameAt ⟨47, 48⟩)] }
      let ss : List Stmt := [.ret .synthetic (some (nameAt ⟨47, 48⟩))]
      (∀ e ∈ u.exprs, e.isWritten = true) ∧ Stmt.block ⟨⟨37, 65⟩, []⟩ run ∈ u.stmts ∧
        before.matchRun? c run = some b ∧
        (StmtPattern.expandEach (c.expansion b .topLevel) after.stmts).run .empty
          = (.ok ss, .empty) ∧
        ∃ edits pre old post,
          after.replace c ⟨0, run, b⟩ .topLevel = .ok ⟨edits, .empty⟩ ∧
          u.source = pre ++ old ++ post ∧
          (EditQueue.mk edits).applyChecked u.source
            = .ok (pre ++ Stmt.renderAll u.source (u.lineIndent pre.utf8ByteSize) ss ++ post) := by
  have small : (textOf (layoutUnit none [] [bodyClass nameStmts])).utf8ByteSize
      < Span.maxOffset := by
    decide +kernel
  refine ⟨small, ?_⟩
  intro u c before after run b ss
  have exprs : u.exprs = [nameAt ⟨47, 48⟩] := by
    show u.types.flatMap _ = _
    rw [types_nameStmts]
    simp [Stmt.exprs_eq, Stmt.children, StmtPart.nodes, Expr.nodes_eq, Expr.children, nameAt,
      bodyClass]
  have written : ∀ e ∈ u.exprs, e.isWritten = true := by
    rw [exprs]
    decide +kernel
  have block : Stmt.block ⟨⟨37, 65⟩, []⟩ ([] ++ (run ++ [])) ∈ u.stmts := by
    show _ ∈ u.types.flatMap _
    rw [types_nameStmts]
    simp [Stmt.stmts_eq, run]
  have matched : before.matchRun? c run = some b :=
    BlockTemplate.matchRun?_eq_some_iff.mpr ⟨b, ⟨47, 59⟩, rfl, rfl, by decide +kernel, rfl⟩
  have expanded : (StmtPattern.expandEach (c.expansion b .topLevel) after.stmts).run .empty
      = (.ok ss, .empty) := rfl
  obtain ⟨edits, pre, old, post, replaced, split, -, text, -⟩ :=
    BlockTemplate.replace_renderAll none [] [bodyClass nameStmts] .empty .rootOnly small written
      before after _ [] run [] b .topLevel ss .empty block matched expanded
  exact ⟨written, block, matched, expanded, edits, pre, old, post, replaced, split,
    text (by decide)⟩

/-- The sum of an array creation without any part and a number, which is printed as ` + 1`. -/
private def blankSum (whole left right : NodeInfo) : Expr :=
  .binary whole .add (.newArray left none [] none) (.literal right (.int 1))

private def blankSumAt (start : Nat) : Expr :=
  blankSum ⟨.primitive .int, ⟨start, start + 4⟩⟩ ⟨.primitive .int, ⟨start, start⟩⟩
    ⟨.primitive .int, ⟨start + 3, start + 4⟩⟩

private def blankStmts : List Stmt :=
  let int := NodeInfo.ofType (.primitive .int)
  [.expr .synthetic (blankSum int int int), .expr .synthetic (blankSum int int int)]

/-- The tree of the example whose body is blank. -/
private theorem types_blankStmts :
    (CompilationUnit.ofDeclarations none [] [bodyClass blankStmts] .empty).types
      = [{ bodyClass [] with
          methods := [⟨"m", [], .primitiveType ⟨.primitive .void, ⟨28, 32⟩⟩ .void, [],
            .block ⟨⟨37, 72⟩, []⟩
              [.expr ⟨⟨47, 52⟩, []⟩ (blankSumAt 47), .expr ⟨⟨61, 66⟩, []⟩ (blankSumAt 61)],
            false, ⟨21, 72⟩⟩]
          span := ⟨0, 74⟩ }] := by
  have recorded : nodeSpansOf 0 (layoutUnit none [] [bodyClass blankStmts])
      = [⟨0, 74⟩, ⟨21, 72⟩, ⟨28, 32⟩, ⟨37, 72⟩, ⟨47, 52⟩, ⟨47, 51⟩, ⟨47, 47⟩, ⟨50, 51⟩,
        ⟨61, 66⟩, ⟨61, 65⟩, ⟨61, 61⟩, ⟨64, 65⟩] := by
    decide +kernel
  change (threadEach TypeDecl.place [bodyClass blankStmts]
    (nodeSpansOf 0 (layoutUnit none [] [bodyClass blankStmts]))).1 = _
  rw [recorded]
  simp [bodyClass, blankStmts, blankSumAt, blankSum, threadEach, TypeDecl.place, MethodDecl.place,
    Stmt.place_eq, StmtPart.place, Stmt.children, Stmt.withSpan, Stmt.withInfo, Stmt.withParts,
    Stmt.comments, Stmt.info, StmtInfo.synthetic, StmtPart.exprs, StmtPart.stmts, Expr.place_eq,
    Expr.children, Expr.withChildren, Expr.withSpan, Expr.withInfo, Expr.type, Expr.info,
    NodeInfo.ofType]

/-- Where statements start with a blank, it counts as indentation of a replacement with more
statements, but not of the line breaks that are kept.  So the new statements are not rendered
together with any one indentation. -/
theorem not_replace_renderAll :
    let u := CompilationUnit.ofDeclarations none [] [bodyClass blankStmts] .empty
    let c : MatchContext := ⟨u, .rootOnly⟩
    let before := plainTemplate [.expr (.free "x"), .expr (.free "y")]
    let after := plainTemplate [.empty, .empty, .empty]
    ∃ (i : StmtInfo) (run : List Stmt) (b : Bindings) (ss : List Stmt) (edits : List TextEdit)
      (pre old post : String),
      u.source.utf8ByteSize < Span.maxOffset ∧
      (∀ e ∈ u.exprs, ∀ j name s, e ≠ .ident j name s ∧ ∀ x, e ≠ .select j x name s) ∧
      Stmt.block i run ∈ u.stmts ∧ before.matchRun? c run = some b ∧
      (StmtPattern.expandEach (c.expansion b .topLevel) after.stmts).run .empty
        = (.ok ss, .empty) ∧
      after.replace c ⟨0, run, b⟩ .topLevel = .ok ⟨edits, .empty⟩ ∧
      u.source = pre ++ old ++ post ∧
      Stmt.runSpan? run = some ⟨pre.utf8ByteSize, (pre ++ old).utf8ByteSize⟩ ∧
      ∀ indent, (EditQueue.mk edits).applyChecked u.source
        ≠ .ok (pre ++ Stmt.renderAll u.source indent ss ++ post) := by
  intro u c before after
  let run : List Stmt :=
    [.expr ⟨⟨47, 52⟩, []⟩ (blankSumAt 47), .expr ⟨⟨61, 66⟩, []⟩ (blankSumAt 61)]
  let b : Bindings := { free := [("x", blankSumAt 47), ("y", blankSumAt 61)] }
  let ss : List Stmt := [.empty .synthetic, .empty .synthetic, .empty .synthetic]
  let edits : List TextEdit := [⟨⟨47, 52⟩, ";"⟩, ⟨⟨61, 66⟩, ";\n         ;"⟩]
  let pre := "public class A \x7b\n    public void m() \x7b\n        "
  let post := "\n    \x7d\n\x7d\n"
  have source : u.source = pre ++ " + 1;\n         + 1;" ++ post := by decide +kernel
  have block : Stmt.block ⟨⟨37, 72⟩, []⟩ run ∈ u.stmts := by
    show _ ∈ u.types.flatMap _
    rw [types_blankStmts]
    simp [Stmt.stmts_eq, run]
  have noNames : ∀ e ∈ u.exprs, ∀ j name s, e ≠ .ident j name s ∧ ∀ x, e ≠ .select j x name s := by
    show ∀ e ∈ u.types.flatMap _, _
    rw [types_blankStmts]
    simp [Stmt.exprs_eq, Stmt.children, StmtPart.nodes, Expr.nodes_eq, Expr.children, blankSumAt,
      blankSum, bodyClass]
  have matched : before.matchRun? c run = some b :=
    BlockTemplate.matchRun?_eq_some_iff.mpr ⟨b, ⟨47, 66⟩, rfl, rfl, by decide +kernel, rfl⟩
  have replaced : after.replace c ⟨0, run, b⟩ .topLevel = .ok ⟨edits, .empty⟩ := by
    decide +kernel
  refine ⟨_, run, b, ss, edits, pre, _, post, by decide +kernel, noNames, block, matched, rfl,
    replaced, source, by decide +kernel, fun indent same => ?_⟩
  have chain : SpanChain 0 66 (edits.map TextEdit.span) := by simp [SpanChain, edits]
  have applied : (EditQueue.mk edits).applyChecked u.source
      = .ok (pre ++ ";\n        ;\n         ;" ++ post) := by
    rw [EditQueue.applyChecked_of_chain chain, source]
    decide +kernel
  have rendered : Stmt.renderAll u.source indent ss
      = ";" ++ ("\n" ++ indent ++ (";" ++ ("\n" ++ indent ++ ";"))) := by
    simp [ss, Stmt.renderAll, Stmt.layout, Stmt.captureOrPrint, sourceText?, separated,
      Stmt.layoutComments, StmtInfo.synthetic, Indent.newline, textOf, toText]
  -- the blanks behind the two line breaks are of different number
  have size := congrArg String.utf8ByteSize (Except.ok.inj (applied.symm.trans same))
  rw [rendered] at size
  simp only [String.utf8ByteSize_append] at size
  have written : (";\n        ;\n         ;" : String).utf8ByteSize = 22 := rfl
  have semicolon : (";" : String).utf8ByteSize = 1 := rfl
  have newline : ("\n" : String).utf8ByteSize = 1 := rfl
  omega

end JavaRefactor
