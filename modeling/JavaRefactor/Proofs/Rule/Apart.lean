import JavaRefactor.Proofs.Edit.Conflicts
import JavaRefactor.Proofs.Rule.Statement

/-!
# The edits of a rule never collide

What a rule finds in a laid-out file lies behind the imports, one match after the other, and
so do the edits of all fixes (`RefactoringRule.scannedBetween_scan`).  New imports go where
the old ones end.  So the fixes of all matches together apply without a conflict
(`RefactoringRule.scan_apart`).
-/

namespace JavaRefactor

open Layout

namespace RefactoringRule

variable (r : RefactoringRule) {c : MatchContext}

/-- What a rule does at an expression of a field. -/
def scanFieldPart (r : RefactoringRule) (c : MatchContext) (e : Expr) : List RuleMatch :=
  match r.body with
  | .expression before after => r.scanExpr c before after e Expr.assignLevel
  | .block _ _ => []

/-- What a rule does at a member of a class, or at a part of a member. -/
def scanMember (r : RefactoringRule) (c : MatchContext) : SyntaxNode → List RuleMatch
  | .expr e => r.scanFieldPart c e
  | .stmt s => r.scanBody c s
  | .method m => r.scanBody c m.body
  | .type _ => []

/-- What a rule does at a part of a method. -/
def scanMethodPart (r : RefactoringRule) (c : MatchContext) : SyntaxNode → List RuleMatch
  | .stmt s => r.scanBody c s
  | _ => []

/-- What a rule does in a class. -/
def scanType (r : RefactoringRule) (c : MatchContext) (t : TypeDecl) : List RuleMatch :=
  t.fields.flatMap (r.scanField c) ++ t.methods.flatMap fun m => r.scanBody c m.body

/-- A class is scanned member by member. -/
theorem scanType_eq (t : TypeDecl) :
    r.scanType c t = (SyntaxNode.type t).children.flatMap (r.scanMember c) := by
  have field (d : VarDecl) : r.scanField c d = d.children.flatMap (r.scanFieldPart c) := by
    unfold scanField scanFieldPart
    cases r.body with
    | expression before after => rfl
    | block before after => exact (List.flatMap_eq_nil_iff.mpr fun _ _ => rfl).symm
  have fields : t.fields.flatMap (r.scanField c)
      = ((t.fields.flatMap VarDecl.children).map SyntaxNode.expr).flatMap (r.scanMember c) := by
    rw [List.flatMap_map, List.flatMap_assoc]
    exact List.flatMap_congr fun d _ => field d
  rw [scanType, fields, SyntaxNode.children, List.flatMap_append, List.flatMap_map,
    List.flatMap_map]
  rfl

/-- What a rule finds in a laid-out method body or field lies there. -/
theorem scannedBetween_scanBody (small : c.unit.source.utf8ByteSize < Span.maxOffset) (s : Stmt)
    (start : Nat) (l : Layout) (h : SyntaxNode.LaidAt start l (.stmt s))
    (text : TextAt c.unit.source start l.toText) :
    ScannedBetween start (start + l.width) (r.scanBody c s) := by
  unfold scanBody
  split
  · exact scannedBetween_scanExprsOf small s start l h text
  · exact scannedBetween_scanStmt small s start l h text

/-- What a rule finds in a laid-out method lies there. -/
theorem scannedBetween_method (small : c.unit.source.utf8ByteSize < Span.maxOffset)
    (m : MethodDecl) (start : Nat) (l : Layout) (h : SyntaxNode.LaidAt start l (.method m))
    (text : TextAt c.unit.source start l.toText) :
    ScannedBetween start (start + l.width) (r.scanBody c m.body) := by
  -- of a method, only the body is scanned
  have whole : r.scanBody c m.body
      = (SyntaxNode.method m).children.flatMap (r.scanMethodPart c) := by
    have none (es : List Expr) : (es.map SyntaxNode.expr).flatMap (r.scanMethodPart c) = [] := by
      rw [List.flatMap_map]
      exact List.flatMap_eq_nil_iff.mpr fun _ _ => rfl
    rw [SyntaxNode.children, List.flatMap_append, none]
    exact (List.append_nil _).symm
  rw [whole]
  refine scannedBetween_children h text ?_
  intro n _ start l laid text
  cases n with
  | stmt s => exact r.scannedBetween_scanBody small s start l laid text
  | _ => exact .nil (Nat.le_add_right _ _)

/-- What a rule finds in a laid-out class lies there. -/
theorem scannedBetween_scanType (small : c.unit.source.utf8ByteSize < Span.maxOffset)
    (t : TypeDecl) (start : Nat) (l : Layout) (h : SyntaxNode.LaidAt start l (.type t))
    (text : TextAt c.unit.source start l.toText) :
    ScannedBetween start (start + l.width) (r.scanType c t) := by
  rw [scanType_eq]
  refine scannedBetween_children h text ?_
  intro n hn start l laid text
  cases n with
  | expr e =>
    show ScannedBetween start (start + l.width) (r.scanFieldPart c e)
    unfold scanFieldPart
    split
    · exact scannedBetween_scanExpr small e Expr.assignLevel start l laid text
    · exact .nil (Nat.le_add_right _ _)
  | method m => exact r.scannedBetween_method small m start l laid text
  | stmt s => exact r.scannedBetween_scanBody small s start l laid text
  | type t => exact .nil (Nat.le_add_right _ _)

end RefactoringRule

/-! ### Units -/

namespace CompilationUnit

/-- New imports go in front of the classes of a laid-out unit. -/
theorem importOffset_le {u : CompilationUnit} {ps qs : List (Nat × Layout)}
    (split : Layout.places 0 u.layout = ps ++ qs)
    (headers : u.headerSpans = ps.map (fun p => .ofOffsets p.1 (p.1 + p.2.width))) :
    u.importInsertionPoint.1 ≤ (textOf u.layout).utf8ByteSize ∧
      ∀ q ∈ qs, u.importInsertionPoint.1 ≤ q.1 := by
  rcases u.importOffset_eq with top | ⟨s, hs, stop⟩
  · rw [top]
    exact ⟨Nat.zero_le _, fun _ _ => Nat.zero_le _⟩
  · rw [headers] at hs
    obtain ⟨p, hp, rfl⟩ := List.mem_map.mp hs
    have le : u.importInsertionPoint.1 ≤ p.1 + p.2.width := by
      rw [stop]
      exact Nat.min_le_left _ _
    have inside : p.1 + p.2.width ≤ 0 + (textOf u.layout).utf8ByteSize :=
      stop_le_of_mem_places (by rw [split]; exact List.mem_append_left _ hp)
    have ordered := pairwise_places 0 u.layout
    rw [split] at ordered
    refine ⟨by omega, ?_⟩
    intro q hq
    exact Nat.le_trans le ((List.pairwise_append.mp ordered).2.2 p hp q hq)

end CompilationUnit

namespace RefactoringRule

/-- What a rule finds in a laid-out unit lies behind the imports. -/
theorem scannedBetween_scan (r : RefactoringRule) {c : MatchContext} (laidOut : c.unit.LaidOut)
    (small : c.unit.source.utf8ByteSize < Span.maxOffset) :
    ScannedBetween c.unit.importInsertionPoint.1 c.unit.source.utf8ByteSize (r.scan c) := by
  obtain ⟨ps, qs, split, headers, -, laid⟩ := laidOut.places
  obtain ⟨le, behind⟩ := CompilationUnit.importOffset_le split headers
  rw [← laidOut.source] at le
  have whole := laidOut.textAt
  have ordered := pairwise_places 0 c.unit.layout
  rw [split] at ordered
  have mem {q : Nat × Layout} (hq : q ∈ qs) : q ∈ places 0 c.unit.layout := by
    rw [split]
    exact List.mem_append_right _ hq
  show ScannedBetween _ _ (c.unit.types.flatMap (r.scanType c))
  refine scannedBetween_flatMap ?_ (List.pairwise_append.mp ordered).2.1 ?_ le
  · obtain ⟨length, zipped⟩ := List.forall₂_iff_zip.mp laid
    refine List.forall₂_iff_zip.mpr ⟨length, ?_⟩
    intro q t hqt
    exact r.scannedBetween_scanType small t q.1 q.2 (zipped hqt)
      (whole.place (mem (List.of_mem_zip hqt).1))
  · intro q hq
    have stop := stop_le_of_mem_places (mem hq)
    rw [← laidOut.source] at stop
    exact ⟨behind q hq, by omega⟩

end RefactoringRule

/-! ### The fixes of all matches together -/

/-- Merging fixes queues their edits one after the other. -/
theorem Fix.edits_foldl_merge (fs : List Fix) (f : Fix) :
    (fs.foldl Fix.merge f).edits = f.edits ++ fs.flatMap Fix.edits := by
  induction fs generalizing f with
  | nil => exact (List.append_nil _).symm
  | cons g fs ih =>
    rw [List.foldl_cons, ih, List.flatMap_cons, ← List.append_assoc]
    rfl

/-- The edits of a merged fix are those of the matches, in their order. -/
theorem RuleMatch.edits_mergedFix (found : List RuleMatch) :
    (RuleMatch.mergedFix found).edits = found.flatMap RuleMatch.edits := by
  rw [mergedFix, Fix.edits_foldl_merge, Fix.empty, List.nil_append]
  induction found with
  | nil => rfl
  | cons m found ih =>
    rw [List.flatMap_cons, ← ih, List.filterMap_cons, RuleMatch.edits]
    cases m.fix with
    | none => rfl
    | some f => rfl

namespace Fix

variable {f : Fix} {u : CompilationUnit} {stop : Nat}

/-- A fix queues its edits and at most one insertion, where imports go in. -/
theorem mem_queue {e : TextEdit} (he : e ∈ (f.queue u).edits) :
    e ∈ f.edits ∨ e.span = ⟨u.importInsertionPoint.1, u.importInsertionPoint.1⟩ := by
  unfold queue at he
  split at he
  · exact .inl he
  · rcases List.mem_append.mp he with he | he
    · exact .inl he
    · rw [List.mem_singleton.mp he]
      exact .inr rfl

/-- Edits that are a chain behind the point where imports go in are queued apart. -/
theorem queue_apart (h : SpanChain u.importInsertionPoint.1 stop (f.edits.map TextEdit.span)) :
    (f.queue u).edits.Pairwise TextEdit.Apart ∧
      ∀ e ∈ (f.queue u).edits, e.span.start ≤ e.span.stop := by
  have forward : ∀ e ∈ f.edits, u.importInsertionPoint.1 ≤ e.span.start ∧
      e.span.start ≤ e.span.stop := fun e he => by
    obtain ⟨behind, own, -⟩ := h.bounds_of_mem (List.mem_map_of_mem he)
    exact ⟨behind, own⟩
  have apart : f.edits.Pairwise TextEdit.Apart := by
    have ordered := List.pairwise_map.mp h.pairwise
    exact ordered.imp fun before => .inl before
  constructor
  · unfold queue
    split
    · exact apart
    · refine List.pairwise_append.mpr ⟨apart, List.pairwise_singleton _ _, ?_⟩
      intro e he i hi
      rw [List.mem_singleton.mp hi]
      exact .inr (forward e he).1
  · intro e he
    rcases mem_queue he with he | span
    · exact (forward e he).2
    · rw [span]

/-- A fix applies if its edits are a chain behind the point where imports go in. -/
theorem apply_eq (h : SpanChain u.importInsertionPoint.1 stop (f.edits.map TextEdit.span)) :
    f.apply u = .ok ((f.queue u).apply u.source) := by
  obtain ⟨apart, forward⟩ := queue_apart h
  rw [apply, EditQueue.applyChecked, EditQueue.conflict?_eq_none apart forward]

/-- A fix whose edits lie one after the other behind the imports can be applied. -/
theorem apply_ok (h : SpanChain u.importInsertionPoint.1 stop (f.edits.map TextEdit.span)) :
    ∃ text, f.apply u = .ok text := ⟨_, apply_eq h⟩

end Fix

namespace RefactoringRule

/-- The matches of one rule in a laid-out unit of less than the longest recordable text stand
one after the other.  So do the edits of all their fixes, inside the source, and all fixes
together apply without a conflict, imports included. -/
theorem scan_apart (r : RefactoringRule) (table : ClassTable) (package : Option String)
    (imports : List Import) (types : List TypeDecl) (symbols : SymbolTable)
    (small : (textOf (layoutUnit package imports types)).utf8ByteSize < Span.maxOffset) :
    let u := CompilationUnit.ofDeclarations package imports types symbols
    let found := r.scan ⟨u, table⟩
    let edits := found.flatMap fun m => (m.fix.map Fix.edits).getD []
    (∀ m ∈ found, m.span.start ≤ m.span.stop) ∧
      found.Pairwise (fun m m' => m.span.stop ≤ m'.span.start) ∧
      (∀ e ∈ edits, e.span.start ≤ e.span.stop ∧ e.span.stop ≤ u.source.utf8ByteSize) ∧
      edits.Pairwise (fun e e' => e.span.stop ≤ e'.span.start) ∧
      ∃ text, (RuleMatch.mergedFix found).apply u = .ok text := by
  intro u found edits
  have laidOut : u.LaidOut :=
    (CompilationUnit.ofDeclarations_laidOut package imports types symbols).1
  obtain ⟨spans, chain⟩ := scannedBetween_scan r (c := ⟨u, table⟩) laidOut small
  refine ⟨?_, List.pairwise_map.mp spans.pairwise, ?_, List.pairwise_map.mp chain.pairwise, ?_⟩
  · intro m hm
    exact (spans.bounds_of_mem (List.mem_map_of_mem hm)).2.1
  · intro e he
    exact (chain.bounds_of_mem (List.mem_map_of_mem he)).2
  · have merged : SpanChain u.importInsertionPoint.1 u.source.utf8ByteSize
        ((RuleMatch.mergedFix found).edits.map TextEdit.span) := by
      rw [RuleMatch.edits_mergedFix]
      exact chain
    exact Fix.apply_ok merged

/-- A rule that deletes two empty statements in a row. -/
private def dropEmpty : RefactoringRule where
  name := "Rules.DropEmpty"
  body := .block [⟨⟨{}, .empty, []⟩, [.empty, .empty]⟩] (some ⟨⟨{}, .empty, []⟩, []⟩)
  options := {}

/-- A class with a method `public void run() { ; ; ; ; }`. -/
private def idleClass : TypeDecl where
  name := "A"
  fields := []
  methods := [⟨"run", [], .primitiveType (.ofType (.primitive .void)) .void, [],
    .block .synthetic [.empty .synthetic, .empty .synthetic, .empty .synthetic,
      .empty .synthetic], false, .synthetic⟩]
  span := .synthetic

/-- The matches of the rule in the class are apart. -/
theorem scan_apart_dropEmpty :
    (textOf (layoutUnit none [] [idleClass])).utf8ByteSize < Span.maxOffset ∧
      (let u := CompilationUnit.ofDeclarations none [] [idleClass] .empty
      let found := dropEmpty.scan ⟨u, .rootOnly⟩
      let edits := found.flatMap fun m => (m.fix.map Fix.edits).getD []
      (∀ m ∈ found, m.span.start ≤ m.span.stop) ∧
        found.Pairwise (fun m m' => m.span.stop ≤ m'.span.start) ∧
        (∀ e ∈ edits, e.span.start ≤ e.span.stop ∧ e.span.stop ≤ u.source.utf8ByteSize) ∧
        edits.Pairwise (fun e e' => e.span.stop ≤ e'.span.start) ∧
        ∃ text, (RuleMatch.mergedFix found).apply u = .ok text) :=
  have small : (textOf (layoutUnit none [] [idleClass])).utf8ByteSize < Span.maxOffset := by
    decide
  ⟨small, dropEmpty.scan_apart .rootOnly none [] [idleClass] .empty small⟩

end RefactoringRule

end JavaRefactor
