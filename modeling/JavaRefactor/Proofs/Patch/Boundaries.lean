import JavaRefactor.Patch.Run
import JavaRefactor.Proofs.Patch.Application
import JavaRefactor.Proofs.Rule.Comments

/-!
# Fixes as patches

A patch is applied to a file only if all of its edits begin and end between characters of the
text, and splicing slices the text at these offsets.  Every edit of a fix is of this kind: it
covers a node of a laid-out unit, or the line of one, or inserts imports behind the header
(`RefactoringRule.edit_fits_of_mem_scan`).  So the patch of a fix is never rejected for its
offsets, slices nothing in the middle of a character, and does to the file what the fix does to
the unit (`Patch.apply_ofFix_mergedFix`).
-/

namespace JavaRefactor

/-- Where a text stands in another one, that has a boundary. -/
theorem TextAt.isBoundary {source : String} {start : Nat} (h : TextAt source start "") :
    Text.isBoundary source.toList start = true := by
  obtain ⟨before, after, rfl, rfl⟩ := h
  rw [String.append_empty, String.toList_append, ← Text.byteLength_toList]
  exact Text.isBoundary_left _ _

/-! ### Edits of fixes -/

/-- The whole line of a span starts between two characters if the span does. -/
theorem Span.isBoundary_wholeLine {source : String} {span : Span}
    (h : Text.isBoundary source.toList span.start = true) :
    Text.isBoundary source.toList (span.wholeLine source).start = true := by
  obtain ⟨front, back, split, size⟩ := Text.isBoundary_iff.mp h
  have before : Text.slice? source.toList 0 span.start = some front := by
    rw [Text.slice?_eq_some (Nat.zero_le _) (Text.isBoundary_zero _) h, Text.dropBytes_zero, split,
      Nat.sub_zero, ← size, Text.takeBytes_left]
  rw [wholeLine, before, Option.getD_some]
  split
  · rename_i rest found
    -- what the line break ends is the beginning of the text in front of the span
    have parts := congrArg List.reverse
      (List.takeWhile_append_dropWhile (p := CompilationUnit.isIndentation) (l := front.reverse))
    rw [found, List.reverse_reverse, List.reverse_append, List.reverse_cons,
      List.append_assoc] at parts
    rw [split, ← parts, List.append_assoc]
    exact Text.isBoundary_iff.mpr ⟨rest.reverse, _, rfl, Text.byteLength_reverse rest⟩
  · exact h

namespace RefactoringRule

open Layout

/-- Every edit of a fix begins and ends between two characters of the source. -/
theorem edit_fits_of_mem_scan {r : RefactoringRule} {c : MatchContext}
    (laidOut : c.unit.LaidOut) (small : c.unit.source.utf8ByteSize < Span.maxOffset)
    {m : RuleMatch} (hm : m ∈ r.scan c) {f : Fix} (hf : m.fix = some f) {e : TextEdit}
    (he : e ∈ f.edits) : Patch.fits c.unit.source.toList e = true := by
  -- every edit begins where a node begins, or where the line of one does
  have starts {n : SyntaxNode} (hn : n ∈ c.unit.nodes) :
      Text.isBoundary c.unit.source.toList n.span.start = true := by
    obtain ⟨start, l, laid, text⟩ := laidOut.exists_place_of_mem_nodes hn
    rw [laid.span_eq text small]
    exact (text.inner "" l.toText (by simp)).isBoundary
  have start : Text.isBoundary c.unit.source.toList e.span.start = true := by
    cases hr : r.body with
    | expression before after =>
      obtain ⟨x, hx, level, b, rfl⟩ := mem_scan_expression hr hm
      have own : e.span ∈ f.edits.map TextEdit.span := List.mem_map_of_mem he
      rw [edits_of_reportExpr hf, List.mem_singleton] at own
      rw [own]
      exact starts (CompilationUnit.expr_mem_nodes hx)
    | block before after =>
      obtain ⟨i, ss, hblock, front, run, back, rfl, t, -, b, matched, start, rfl⟩ :=
        mem_scan_block hr hm
      obtain ⟨x, ps, hx, replaced⟩ := exists_replaceEach_of_reportRun hf
      obtain ⟨s, hs, span⟩ := BlockTemplate.replaceEach_ensures_span x ps run _ _ _ replaced e he
      rw [hx] at span
      have member : s ∈ front ++ (run ++ back) :=
        List.mem_append_right _ (List.mem_append_left _ hs)
      have child :
          SyntaxNode.stmt s ∈ (SyntaxNode.stmt (.block i (front ++ (run ++ back)))).nodes :=
        SyntaxNode.mem_nodes_of_mem_children (List.mem_map_of_mem (List.mem_map_of_mem member))
      have own : Text.isBoundary c.unit.source.toList s.span.start = true :=
        starts (CompilationUnit.nodes_trans (CompilationUnit.stmt_mem_nodes hblock) child)
      rcases span with span | span
      · rw [span]
        exact own
      · rw [span]
        exact Span.isBoundary_wholeLine own
  have stop := (edit_apart_of_mem_scan laidOut small hm hf he).1
  rw [Patch.fits, start, stop.isBoundary]
  rfl

/-- So do all edits that the fixes of some rules queue together. -/
theorem queue_fits {rules : List RefactoringRule} {c : MatchContext} (laidOut : c.unit.LaidOut)
    (small : c.unit.source.utf8ByteSize < Span.maxOffset) {e : TextEdit}
    (he : e ∈ ((RuleMatch.mergedFix (scanAll rules c)).queue c.unit).edits) :
    Patch.fits c.unit.source.toList e = true := by
  rcases Fix.mem_queue he with he | span
  · rw [RuleMatch.edits_mergedFix] at he
    obtain ⟨m, hm, he⟩ := List.mem_flatMap.mp he
    obtain ⟨f, hf, he⟩ := RuleMatch.mem_edits he
    obtain ⟨r, -, hm⟩ := List.mem_flatMap.mp hm
    exact edit_fits_of_mem_scan laidOut small hm hf he
  · have header := (laidOut.importOffset_apart small).1.isBoundary
    rw [Patch.fits, span, header]
    rfl

end RefactoringRule

/-! ### Patches of fixes -/

namespace Patch

open Layout in
/-- The patch of all fixes of some rules in a laid-out unit of less than the longest recordable
text does to the text what the fixes do.  Splicing cuts no character; the patch gives a text
exactly if the fixes do, and fails exactly with the conflict that they have.  Then a run with this
patch leaves all files as they are. -/
theorem apply_ofFix_mergedFix (rules : List RefactoringRule) (table : ClassTable)
    (package : Option String) (imports : List Import) (types : List TypeDecl)
    (symbols : SymbolTable) (path : String)
    (small : (textOf (layoutUnit package imports types)).utf8ByteSize < Span.maxOffset) :
    let u := CompilationUnit.ofDeclarations package imports types symbols
    let fix := RuleMatch.mergedFix (RefactoringRule.scanAll rules ⟨u, table⟩)
    let p := ofFix path fix u
    p.changes.applySlices? u.source = some (p.changes.apply u.source) ∧
      (∀ text, p.apply u.source = .ok text ↔ fix.apply u = .ok text) ∧
      (∀ e, p.apply u.source = .error e ↔ ∃ k, fix.apply u = .error k ∧ e = .conflict path k) ∧
      ∀ (σ : Type) (access : FileAccess σ) (files : σ), access.read files path = .ok u.source →
        ∀ k, fix.apply u = .error k →
          access.applyEach false [p] files = (.error (.conflict path k), files) ∧
            access.applyEach true [p] files = (.ok (0, [path]), files) := by
  intro u fix p
  have laidOut : u.LaidOut :=
    (CompilationUnit.ofDeclarations_laidOut package imports types symbols).1
  -- no edit cuts a character, so slicing never fails and only conflicts are left
  have fit : ∀ e ∈ (fix.queue u).edits, fits u.source.toList e = true :=
    fun e he => RefactoringRule.queue_fits (c := ⟨u, table⟩) laidOut small he
  have applied : p.apply u.source = (fix.apply u).mapError (PatchError.conflict path) :=
    apply_of_fits rfl fit
  refine ⟨EditQueue.applySlices?_eq fit, fun text => ?_, fun e => ?_, ?_⟩
  · rw [applied]
    cases fix.apply u with
    | ok changed => simp [Except.mapError]
    | error k => simp [Except.mapError]
  · rw [applied]
    cases fix.apply u with
    | ok changed => simp [Except.mapError]
    | error k => simp [Except.mapError, eq_comm]
  · intro σ access files found k conflict
    have failed : access.applyPatch p files = .error (.conflict path k) := by
      have read : access.read files p.path = .ok u.source := found
      rw [FileAccess.applyPatch, read]
      show (p.apply u.source >>= access.write files p.path) = _
      rw [applied, conflict]
      rfl
    constructor
    · rw [FileAccess.applyEach, failed]
      rfl
    · rw [FileAccess.applyEach, failed, FileAccess.applyEach]
      rfl

/-- A rule that writes another number for `1`. -/
private def oneTo (n : Int) : RefactoringRule where
  name := "Rules.OneTo"
  body := .expression [⟨⟨{}, .empty, []⟩, .literal (.int 1), .primitive .int⟩]
    (some ⟨⟨{}, .empty, []⟩, .literal (.int n), .primitive .int⟩)
  options := {}

/-- A class with a field `private int größe = 1;`. -/
private def sizedClass : TypeDecl where
  name := "A"
  fields :=
    let int := NodeInfo.ofType (.primitive .int)
    [⟨"größe", .primitiveType int .int, some (.literal int (.int 1)), none, false⟩]
  methods := []
  span := .synthetic

open Layout in
/-- Two rules that write different numbers for the same `1` are in conflict, as edits of a unit
and as a patch. -/
theorem apply_ofFix_mergedFix_oneTo :
    (textOf (layoutUnit none [] [sizedClass])).utf8ByteSize < Span.maxOffset ∧
      let u := CompilationUnit.ofDeclarations none [] [sizedClass] .empty
      let fix := RuleMatch.mergedFix
        (RefactoringRule.scanAll [oneTo 2, oneTo 3] ⟨u, .rootOnly⟩)
      let p := ofFix "A.java" fix u
      fix.edits = [⟨⟨43, 44⟩, "2"⟩, ⟨⟨43, 44⟩, "3"⟩] ∧
        p.changes.applySlices? u.source = some (p.changes.apply u.source) ∧
        p.apply u.source
          = .error (.conflict "A.java" ⟨⟨⟨43, 44⟩, "2"⟩, ⟨⟨43, 44⟩, "3"⟩⟩) := by
  have small : (textOf (layoutUnit none [] [sizedClass])).utf8ByteSize < Span.maxOffset := by
    decide
  obtain ⟨slices, -, errors, -⟩ := apply_ofFix_mergedFix [oneTo 2, oneTo 3] .rootOnly none []
    [sizedClass] .empty "A.java" small
  have edits : (RuleMatch.mergedFix (RefactoringRule.scanAll [oneTo 2, oneTo 3]
      ⟨.ofDeclarations none [] [sizedClass] .empty, .rootOnly⟩)).edits
        = [⟨⟨43, 44⟩, "2"⟩, ⟨⟨43, 44⟩, "3"⟩] := by
    decide +kernel
  have queue : (RuleMatch.mergedFix (RefactoringRule.scanAll [oneTo 2, oneTo 3]
      ⟨.ofDeclarations none [] [sizedClass] .empty, .rootOnly⟩)).queue
        (.ofDeclarations none [] [sizedClass] .empty)
          = ⟨[⟨⟨43, 44⟩, "2"⟩, ⟨⟨43, 44⟩, "3"⟩]⟩ := by
    decide +kernel
  refine ⟨small, edits, slices, (errors _).mpr ⟨_, ?_, rfl⟩⟩
  rw [Fix.apply, queue, EditQueue.applyChecked, EditQueue.conflict?, EditQueue.ordered,
    List.mergeSort_of_pairwise (by decide)]
  rfl

end Patch

end JavaRefactor
