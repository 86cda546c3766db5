import JavaRefactor.Proofs.Unit.Comments
import JavaRefactor.Proofs.Unit.Holes

/-!
# How lines are indented

The lines of a laid-out file start with blanks only, four for each level of nesting.  A node does
not say at which indentation it is laid out, but the layout of the statement around it does
(`IndentedAt.child`), and the classes of a file start at the left, so all statements of a file
are indented by blanks (`CompilationUnit.LaidOut.indentedAt`).
-/

namespace JavaRefactor

open Layout

/-! ### Line breaks -/

/-- Behind a line break that is indented by levels only, there are blanks. -/
theorem Indent.exists_blanks {ind : Indent} (base : ind.base = "") :
    ∃ blanks, ind.newline.toList = '\n' :: blanks ∧
      ∀ c ∈ blanks, CompilationUnit.isIndentation c = true := by
  have levels (n : Nat) : ∀ c ∈ (String.join (List.replicate n step)).toList,
      CompilationUnit.isIndentation c = true := by
    induction n with
    | zero => exact fun c hc => absurd hc (by simp)
    | succ n ih =>
      intro c hc
      rw [List.replicate_succ, String.join_cons, String.toList_append] at hc
      rcases List.mem_append.mp hc with hc | hc
      · exact List.all_eq_true.mp (by decide : step.toList.all CompilationUnit.isIndentation = true)
          c hc
      · exact ih c hc
  refine ⟨_, ?_, levels ind.depth⟩
  rw [newline, base, String.append_empty, String.toList_append]
  rfl

/-! ### Indentation of nodes -/

/-- The parts of a statement start their lines with what the statement starts its lines with. -/
theorem Stmt.base_of_mem_slots {s : Stmt} {ind : Indent} {inHeader : Bool} {q : StmtPlace}
    (hq : q ∈ Piece.slots (s.pieces ind inHeader)) : q.indent.base = ind.base := by
  have body (t : Stmt) : (ind.ofBody t).base = ind.base := by
    rw [Indent.ofBody]
    split <;> rfl
  have lines (ss : List Stmt) (h : q ∈ Piece.slots (ss.flatMap fun _ =>
      [.text ind.deeper.newline, .slot (⟨ind.deeper, false⟩ : StmtPlace)])) :
      q.indent.base = ind.base := by
    induction ss with
    | nil => exact absurd h List.not_mem_nil
    | cons s ss ih =>
      rcases List.mem_cons.mp h with rfl | h
      · rfl
      · exact ih h
  have decl (d : VarDecl) (h : q ∈ Piece.slots (d.pieces (⟨ind, false⟩ : StmtPlace))) :
      q.indent.base = ind.base := by
    obtain ⟨name, type, init, symbol, isFinal⟩ := d
    obtain rfl : q = ⟨ind, false⟩ := by
      cases isFinal <;> cases init <;> simpa [VarDecl.pieces] using h
    rfl
  -- the places of a form are few, and each is the statement's own, deeper, or that of a body
  cases s with
  | block i stmts =>
    cases stmts with
    | nil => exact absurd hq List.not_mem_nil
    | cons t ts =>
      refine lines (t :: ts) ?_
      simpa [pieces] using hq
  | ifElse i cond yes no =>
    cases no with
    | none =>
      obtain rfl | rfl : q = ⟨ind, false⟩ ∨ q = ⟨ind.ofBody yes, false⟩ := by
        simpa [pieces] using hq
      · rfl
      · exact body yes
    | some no =>
      obtain rfl | rfl | rfl : q = ⟨ind, false⟩ ∨ q = ⟨ind.ofBody yes, false⟩ ∨
          q = ⟨if no.isIf then ind else ind.ofBody no, false⟩ := by
        simpa [pieces] using hq
      · rfl
      · exact body yes
      · dsimp only
        split
        · rfl
        · exact body no
  | forLoop i init cond update stmt =>
    have mem : q = ⟨ind, true⟩ ∨ q = ⟨ind, false⟩ ∨ q = ⟨ind.ofBody stmt, false⟩ := by
      cases cond <;> cases update <;> simp [pieces] at hq <;> tauto
    rcases mem with rfl | rfl | rfl
    · rfl
    · rfl
    · exact body stmt
  | forEach i var iterable stmt =>
    have mem : q ∈ Piece.slots (var.pieces (⟨ind, false⟩ : StmtPlace)) ∨ q = ⟨ind, false⟩ ∨
        q = ⟨ind.ofBody stmt, false⟩ := by
      simpa [pieces] using hq
    rcases mem with h | rfl | rfl
    · exact decl var h
    · rfl
    · exact body stmt
  | ret i value =>
    cases value with
    | none => exact absurd hq List.not_mem_nil
    | some value =>
      obtain rfl : q = ⟨ind, false⟩ := by simpa [pieces] using hq
      rfl
  | declare i d =>
    refine decl d ?_
    cases inHeader <;> simpa [pieces] using hq
  | whileLoop i cond stmt | doLoop i stmt cond | synchronized i lock stmt =>
    have mem : q = ⟨ind, false⟩ ∨ q = ⟨ind.ofBody stmt, false⟩ := by
      simp [pieces] at hq
      tauto
    rcases mem with rfl | rfl
    · rfl
    · exact body stmt
  | raise | expr =>
    obtain rfl : q = ⟨ind, false⟩ := by
      cases inHeader <;> simpa [pieces] using hq
    rfl
  | empty => exact absurd hq List.not_mem_nil

/-! ### Where statements are indented -/

/-- A statement is laid out where it is set in a source, in lines that start with blanks only. -/
def IndentedAt (source : String) (ks : List Span) (s : Stmt) : Prop :=
  ∃ start ind inHeader, ind.base = "" ∧
    SyntaxNode.LaidAt start (.node (s.parts ind inHeader)) (.stmt s) ∧
    SetIn source ks start [.node (s.parts ind inHeader)]

namespace IndentedAt

variable {source : String} {ks : List Span} {s t : Stmt}

/-- So are the statements directly inside it. -/
theorem child (small : source.utf8ByteSize < Span.maxOffset) (h : IndentedAt source ks s)
    (ht : .stmt t ∈ s.children) : IndentedAt source ks t := by
  obtain ⟨start, ind, inHeader, base, laid, set⟩ := h
  obtain ⟨before, after, children⟩ := List.append_of_mem ht
  have inside : before.length < (Piece.slots (s.pieces ind inHeader)).length := by
    rw [s.length_slots, children, List.length_append, List.length_cons]
    omega
  have place := List.getElem?_eq_getElem inside
  obtain ⟨back, split⟩ := Piece.fill_split StmtPlace.layout place after
  generalize (Piece.slots (s.pieces ind inHeader))[before.length] = q at place split
  have count := Piece.length_subnodes_fillBefore StmtPlace.length_subnodes_layout
    (Nat.le_of_lt inside)
  have parts : s.parts ind inHeader
      = Piece.fillBefore StmtPlace.layout (s.pieces ind inHeader) before
        ++ t.above q.indent q.inHeader
        ++ .node (t.parts q.indent q.inHeader) :: back := by
    rw [Stmt.parts, children, split, StmtPlace.layout, Stmt.layout_eq]
    simp only [List.append_assoc, List.cons_append, List.nil_append]
  have nodes : (SyntaxNode.stmt s).children
      = before.map StmtPart.node ++ .stmt t :: after.map StmtPart.node := by
    rw [SyntaxNode.children, children, List.map_append, List.map_cons]
    rfl
  rw [parts] at laid set
  refine ⟨_, q.indent, q.inHeader, ?_, laid.at_split rfl nodes (.inl ?_),
    ((set.parts.append small).2.cons small).1⟩
  · exact (Stmt.base_of_mem_slots (List.mem_of_getElem? place)).trans base
  · rw [subnodes_append, Stmt.subnodes_above, List.append_nil, count, List.length_map]

/-- So are all statements inside it. -/
theorem of_mem_stmts (small : source.utf8ByteSize < Span.maxOffset) (h : IndentedAt source ks s)
    (ht : t ∈ s.stmts) : IndentedAt source ks t := by
  induction s using Stmt.induction with
  | step s ih =>
    rw [Stmt.stmts_eq] at ht
    rcases List.mem_cons.mp ht with rfl | ht
    · exact h
    · obtain ⟨part, hpart, ht⟩ := List.mem_flatMap.mp ht
      cases part with
      | expr e => exact absurd ht List.not_mem_nil
      | stmt c => exact ih c hpart (h.child small hpart) ht

end IndentedAt

namespace CompilationUnit.LaidOut

variable {u : CompilationUnit}

/-- The statements of a laid-out unit are laid out in lines that start with blanks only. -/
theorem indentedAt (h : u.LaidOut) (small : u.source.utf8ByteSize < Span.maxOffset) {s : Stmt}
    (hs : s ∈ u.stmts) : IndentedAt u.source u.comments s := by
  obtain ⟨t, ht, hs⟩ := List.mem_flatMap.mp hs
  obtain ⟨m, hm, hs⟩ := List.mem_flatMap.mp hs
  refine IndentedAt.of_mem_stmts small ?_ hs
  obtain ⟨⟨start, l⟩, hp, laid⟩ := h.exists_mem_places ht
  have set := h.setIn.place small hp
  obtain ⟨before, after, methods⟩ := List.append_of_mem hm
  obtain ⟨front, back, count, layout⟩ := t.layout_method before after
  obtain rfl : l
      = .node (front ++ m.layout Indent.outermost.deeper :: (back ++ [.text "\x7d"])) := by
    rw [← layout m, ← methods]
    obtain ⟨printed, _⟩ := laid
    exact printed.symm
  have members : (SyntaxNode.type t).children
      = (t.fields.flatMap VarDecl.children).map .expr ++ before.map .method
        ++ .method m :: after.map .method := by
    rw [SyntaxNode.children, methods, List.map_append, List.map_cons, List.append_assoc]
  have behind : (subnodes (back ++ [.text "\x7d"])).length
      = (after.map SyntaxNode.method).length := by
    rw [subnodes_append, List.length_append, count, List.length_map]
    rfl
  have body : m.layout Indent.outermost.deeper
      = .node (m.head ++ m.body.above Indent.outermost.deeper false
        ++ .node (m.body.parts Indent.outermost.deeper false) :: []) :=
    MethodDecl.layout_body Indent.outermost.deeper m m.body
  have parts : (SyntaxNode.method m).children
      = (m.returnType :: m.params.flatMap VarDecl.children).map .expr ++ .stmt m.body :: [] := rfl
  rw [body] at laid set
  have laidBody := (laid.at_split rfl members (.inr behind)).at_split rfl parts (.inr rfl)
  have setBody := ((((set.parts.append small).2.cons small).1.parts.append small).2.cons small).1
  exact ⟨_, Indent.outermost.deeper, false, rfl, laidBody, setBody⟩

end CompilationUnit.LaidOut

end JavaRefactor
