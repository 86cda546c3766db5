import JavaRefactor.Proofs.Edit.Splice
import JavaRefactor.Proofs.Expansion.Copies
import JavaRefactor.Proofs.Rule.Expression
import JavaRefactor.Proofs.Token.Replacement

/-!
# The tokens of a fixed unit

What a rule about expressions reports stands in a hole of the unit
(`RefactoringRule.unitHole_of_mem_scan`).  Its fix edits the text of that expression, so the
edited source and the unit with the new expression in the hole differ only in what is written
around the expression (`RefactoringRule.scan_tokens`).
-/

namespace JavaRefactor

open Layout

/-! ### Where a rule reports an expression -/

/-- A pair of two lists side by side stands at one place in both. -/
theorem exists_split_of_mem_zip {α β : Type} {as : List α} {bs : List β} {a : α} {b : β}
    (h : (a, b) ∈ as.zip bs) :
    ∃ before after, as = before ++ a :: after ∧ bs[before.length]? = some b := by
  induction as generalizing bs with
  | nil => exact absurd h (by simp)
  | cons a' as ih =>
    cases bs with
    | nil => exact absurd h (by simp)
    | cons b' bs =>
      rw [List.zip_cons_cons, List.mem_cons] at h
      rcases h with h | h
      · obtain ⟨rfl, rfl⟩ := Prod.mk.inj h
        exact ⟨[], as, rfl, rfl⟩
      · obtain ⟨before, after, rfl, found⟩ := ih h
        exact ⟨a' :: before, after, rfl, found⟩

namespace RefactoringRule

variable {r : RefactoringRule} {c : MatchContext} {before : List ExpressionTemplate}
  {after : Option ExpressionTemplate} {m : RuleMatch}

/-- A match in an expression is reported for what stands in a hole of it. -/
theorem exprHole_of_mem_scanExpr (e : Expr) (p : ExprPlace)
    (h : m ∈ r.scanExpr c before after e p.level) :
    ∃ C q n b, ExprHole p q C ∧ C n = e ∧ matchExpr? c before n = some b ∧
      m = r.reportExpr c after n q.level b := by
  induction e using Expr.induction generalizing p with
  | step e ih =>
    cases hmatch : matchExpr? c before e with
    | some b =>
      rw [scanExpr, hmatch] at h
      exact ⟨_, p, e, b, .here p, rfl, hmatch, List.mem_singleton.mp h⟩
    | none =>
      rw [scanExpr_of_none hmatch, Expr.places_eq, List.flatMap_map] at h
      obtain ⟨⟨child, place⟩, paired, h⟩ := List.mem_flatMap.mp h
      obtain ⟨first, last, children, slot⟩ := exists_split_of_mem_zip paired
      obtain ⟨C, q, n, b, hole, hn, matched, reported⟩ :=
        ih child (List.of_mem_zip paired).1 place h
      refine ⟨_, q, n, b, .inside e children slot hole, ?_, matched, reported⟩
      rw [hn, ← children, Expr.withChildren_children]

/-- A match in a statement is reported for what stands in a hole of it. -/
theorem stmtHole_of_mem_scanExprsOf (s : Stmt) (h : m ∈ r.scanExprsOf c before after s) :
    ∃ C q n b, StmtHole q C ∧ C n = s ∧ matchExpr? c before n = some b ∧
      m = r.reportExpr c after n q.level b := by
  induction s using Stmt.induction with
  | step s ih =>
    rw [scanExprsOf_eq, SyntaxNode.children, List.flatMap_map] at h
    obtain ⟨part, hpart, h⟩ := List.mem_flatMap.mp h
    obtain ⟨first, last, children⟩ := List.append_of_mem hpart
    cases part with
    | expr e =>
      obtain ⟨C, q, n, b, hole, hn, matched, reported⟩ := exprHole_of_mem_scanExpr e .any h
      refine ⟨_, q, n, b, .expr s children hole, ?_, matched, reported⟩
      rw [hn, ← children, Stmt.rebuilt, Stmt.withParts_children]
    | stmt t =>
      obtain ⟨C, q, n, b, hole, rfl, matched, reported⟩ := ih t hpart h
      refine ⟨_, q, n, b, .stmt s children hole, ?_, matched, reported⟩
      rw [← children, Stmt.rebuilt, Stmt.withParts_children]

/-- A match in a unit is reported for what stands in a hole of its classes. -/
theorem unitHole_of_mem_scan (hbody : r.body = .expression before after) (h : m ∈ r.scan c) :
    ∃ C q n b, UnitHole q C ∧ C n = c.unit.types ∧ matchExpr? c before n = some b ∧
      m = r.reportExpr c after n q.level b := by
  obtain ⟨t, ht, h⟩ := List.mem_flatMap.mp h
  obtain ⟨first, last, types⟩ := List.append_of_mem ht
  rw [types]
  rcases List.mem_append.mp h with h | h
  · obtain ⟨d, hd, h⟩ := List.mem_flatMap.mp h
    rw [scanField, hbody] at h
    obtain ⟨e, he, h⟩ := List.mem_flatMap.mp h
    obtain ⟨fields, fields', hfields⟩ := List.append_of_mem hd
    obtain ⟨es, es', children⟩ := List.append_of_mem he
    obtain ⟨C, q, n, b, hole, hn, matched, reported⟩ := exprHole_of_mem_scanExpr e .any h
    refine ⟨_, q, n, b, .type first last (.field t hfields children hole), ?_, matched, reported⟩
    rw [hn, ← children, VarDecl.withChildren_children, ← hfields]
  · obtain ⟨method, hmethod, h⟩ := List.mem_flatMap.mp h
    rw [scanBody, hbody] at h
    obtain ⟨methods, methods', hmethods⟩ := List.append_of_mem hmethod
    obtain ⟨C, q, n, b, hole, hn, matched, reported⟩ := stmtHole_of_mem_scanExprsOf _ h
    refine ⟨_, q, n, b, .type first last (.body t hmethods hole), ?_, matched, reported⟩
    rw [hn, ← hmethods]

end RefactoringRule

/-! ### A single edit -/

/-- Editing one text between two others. -/
theorem EditQueue.apply_single (front old new back : String) :
    (EditQueue.mk [⟨⟨front.utf8ByteSize, front.utf8ByteSize + old.utf8ByteSize⟩, new⟩]).apply
        (front ++ old ++ back) = front ++ new ++ back := by
  have chars (middle : String) : front ++ middle ++ back
      = String.ofList (front.toList ++ (middle.toList ++ back.toList)) := by
    simp [String.ofList_append, String.append_assoc]
  rw [chars old, chars new]
  exact apply_singleton (Text.byteLength_toList front) (by rw [Text.byteLength_toList])

/-! ### Edits and trees -/

/-- The nodes of an expression that is laid out in a source are true to it. -/
theorem SyntaxNode.LaidAt.all_trueTo {source : String} {start : Nat} {l : Layout} {e : Expr}
    (h : LaidAt start l (.expr e)) (text : TextAt source start l.toText)
    (small : source.utf8ByteSize < Span.maxOffset) : e.All (Expr.TrueTo source) := by
  intro x hx
  obtain ⟨start', l', laid, own⟩ := h.of_mem_nodes text (List.mem_map_of_mem hx)
  exact .inr (laid.slice?_eq own small)

namespace RefactoringRule

/-- A fix of a reported match rewrites one expression: an expression in a place of the unit
matches, and the fix edits its text to that of the expanded replacement. -/
structure Rewrites (r : RefactoringRule) (c : MatchContext) (m : RuleMatch) (f : Fix)
    (q : ExprPlace) (C : Expr → List TypeDecl) (old new : Expr) : Prop where
  hole : UnitHole q C
  plugged : C old = c.unit.types
  span : m.span = old.span
  expanded : ∃ before t b, r.body = .expression before (some t) ∧ matchExpr? c before old = some b ∧
    (t.pattern.expand (c.expansion b r.importPolicy)).run .empty = (.ok new, f.imports)
  edits : f.edits = [⟨old.span, new.renderAt c.unit.source q.level⟩]

/-- Every fix of a rule about expressions rewrites an expression. -/
theorem exists_rewrites {r : RefactoringRule} {c : MatchContext} {m : RuleMatch} {f : Fix}
    (kind : r.body.isExpression = true) (hm : m ∈ r.scan c) (hf : m.fix = some f) :
    ∃ q C old new, r.Rewrites c m f q C old new := by
  cases hbody : r.body with
  | block before after => exact absurd kind (by rw [hbody]; simp [RuleBody.isExpression])
  | expression before after =>
    obtain ⟨C, q, old, b, hole, hold, matched, rfl⟩ := unitHole_of_mem_scan hbody hm
    obtain ⟨t, rfl, h⟩ := Option.bind_eq_some_iff.mp hf
    have h := Bindings.toOption_eq_some h
    unfold ExpressionTemplate.replace at h
    split at h
    · rename_i new imports expanded
      obtain rfl := Except.ok.inj h
      exact ⟨q, C, old, new, hole, hold, rfl, ⟨before, t, b, hbody, matched, expanded⟩, rfl⟩
    · exact absurd h (by simp)

/-- The new expression copies from the source what is there. -/
theorem Rewrites.new_trueTo {r : RefactoringRule} {c : MatchContext} {m : RuleMatch} {f : Fix}
    {q : ExprPlace} {C : Expr → List TypeDecl} {old new : Expr}
    (h : r.Rewrites c m f q C old new) (trueTo : old.All (Expr.TrueTo c.unit.source)) :
    new.All (Expr.TrueTo c.unit.source) := by
  obtain ⟨before, t, b, -, matched, expanded⟩ := h.expanded
  obtain ⟨t', -, found⟩ := List.exists_of_findSome?_eq_some matched
  have carries : (c.expansion b r.importPolicy).Carries (Expr.TrueTo c.unit.source) :=
    ⟨fun _ empty => .inl empty, ExpressionTemplate.match?_all (fun _ => .inl rfl) trueTo found⟩
  exact ExprPattern.expand_ensures carries t.pattern .empty new f.imports expanded

/-- In a laid-out unit of less than the longest recordable text, the edit of a rewriting puts
the text of the new expression for the text of the old one, and leaves the rest. -/
theorem Rewrites.exists_around {r : RefactoringRule} {c : MatchContext} {m : RuleMatch}
    {f : Fix} {q : ExprPlace} {C : Expr → List TypeDecl} {old new : Expr}
    (h : r.Rewrites c m f q C old new) (laidOut : c.unit.LaidOut)
    (small : c.unit.source.utf8ByteSize < Span.maxOffset) :
    ∃ front back, back ≠ "" ∧ EndsInOperator q front ∧
      (∀ x, textOf (layoutUnit c.unit.package c.unit.imports (C x))
        = front ++ textOf (q.layout none x) ++ back) ∧
      (EditQueue.mk f.edits).apply c.unit.source
        = front ++ textOf (q.opening old) ++ textOf (encloseAt q.level new (new.layout none))
          ++ textOf (q.closing old) ++ back := by
  obtain ⟨front, back, more, around, ends⟩ := h.hole.around c.unit.package c.unit.imports
  refine ⟨front, back, more, ends, around.text, ?_⟩
  have source : c.unit.source
      = front ++ textOf (q.opening old) ++ old.print ++ (textOf (q.closing old) ++ back) := by
    have whole := around.text old
    rw [h.plugged, ExprPlace.layout_eq, textOf_append, textOf] at whole
    rw [laidOut.source, CompilationUnit.layout, whole]
    simp only [String.append_assoc]
    rfl
  -- the old expression stands right behind the text in front and its opening parentheses
  have laid : SyntaxNode.LaidAt (front ++ textOf (q.opening old)).utf8ByteSize (old.layout none)
      (.expr old) := by
    obtain ⟨ps, qs, split, -, -, types⟩ := laidOut.places
    rw [CompilationUnit.layout, ← h.plugged] at split
    rw [← h.plugged] at types
    have found := around.laid 0 old ⟨ps, qs, split, types⟩
    rw [Nat.zero_add] at found
    exact found
  have text : TextAt c.unit.source (front ++ textOf (q.opening old)).utf8ByteSize
      (old.layout none).toText := ⟨_, _, source, rfl⟩
  have rendered := (h.new_trueTo (laid.all_trueTo text small)).renderAt q.level
  have span : old.span = ⟨(front ++ textOf (q.opening old)).utf8ByteSize,
      (front ++ textOf (q.opening old)).utf8ByteSize + old.print.utf8ByteSize⟩ :=
    laid.span_eq text small
  have edited := EditQueue.apply_single (front ++ textOf (q.opening old)) old.print
    (textOf (encloseAt q.level new (new.layout none))) (textOf (q.closing old) ++ back)
  rw [h.edits, rendered, span, source, edited, ← String.append_assoc]

/-- What the fixes of a rule about expressions mean.  Each rewrites one expression, and the
source with its edit has the tokens of the unit with the new expression, in some number of
parentheses, in the place of the old one: unless the space after a sign before that place is
not the one that the new expression needs, and the new expression goes on with the token that
the sign belongs to. -/
theorem scan_tokens (r : RefactoringRule) (table : ClassTable) (package : Option String)
    (imports : List Import) (types : List TypeDecl) (symbols : SymbolTable)
    (small : (textOf (layoutUnit package imports types)).utf8ByteSize < Span.maxOffset)
    (kind : r.body.isExpression = true) :
    let u := CompilationUnit.ofDeclarations package imports types symbols
    ∀ m ∈ r.scan ⟨u, table⟩, ∀ f, m.fix = some f →
      ∃ q C old new front back, r.Rewrites ⟨u, table⟩ m f q C old new ∧
        (∀ x, textOf (layoutUnit u.package u.imports (C x))
          = front ++ textOf (q.layout none x) ++ back) ∧
        ((∃ n, javaTokens ((EditQueue.mk f.edits).apply u.source)
            = javaTokens (textOf (layoutUnit u.package u.imports (C (new.inParens n)))))
          ↔ ¬ q.SpaceMatters front old new back) := by
  intro u m hm f hf
  have laidOut : u.LaidOut :=
    (CompilationUnit.ofDeclarations_laidOut package imports types symbols).1
  obtain ⟨q, C, old, new, rewrites⟩ := exists_rewrites kind hm hf
  obtain ⟨front, back, more, ends, around, edited⟩ := rewrites.exists_around laidOut small
  refine ⟨q, C, old, new, front, back, rewrites, around, ?_⟩
  simp only [edited, around]
  exact tokens_edited_iff ends more

/-- A rule that writes `-1` for `+1`. -/
private def negateOne : RefactoringRule where
  name := "Rules.NegateOne"
  body := .expression
    [⟨⟨{}, .empty, []⟩, .unary .plus (.literal (.int 1)), .primitive .int⟩]
    (some ⟨⟨{}, .empty, []⟩, .unary .minus (.literal (.int 1)), .primitive .int⟩)
  options := {}

/-- A class with a field `private int x = -+1;`. -/
private def signedClass : TypeDecl where
  name := "A"
  fields :=
    let int := NodeInfo.ofType (.primitive .int)
    [⟨"x", .primitiveType int .int,
      some (.unary int .minus (.unary int .plus (.literal int (.int 1)))), none, false⟩]
  methods := []
  span := .synthetic

/-- What the fix of the rule in the class means. -/
theorem scan_tokens_negateOne :
    (textOf (layoutUnit none [] [signedClass])).utf8ByteSize < Span.maxOffset ∧
      negateOne.body.isExpression = true ∧
      (let u := CompilationUnit.ofDeclarations none [] [signedClass] .empty
      ∃ m ∈ negateOne.scan ⟨u, .rootOnly⟩, ∃ f, m.fix = some f ∧
        f.edits = [⟨⟨38, 40⟩, "-1"⟩] ∧
        ∃ q C old new front back, negateOne.Rewrites ⟨u, .rootOnly⟩ m f q C old new ∧
          (∀ x, textOf (layoutUnit u.package u.imports (C x))
            = front ++ textOf (q.layout none x) ++ back) ∧
          ((∃ n, javaTokens ((EditQueue.mk f.edits).apply u.source)
              = javaTokens (textOf (layoutUnit u.package u.imports (C (new.inParens n)))))
            ↔ ¬ q.SpaceMatters front old new back)) := by
  have small : (textOf (layoutUnit none [] [signedClass])).utf8ByteSize < Span.maxOffset := by
    decide
  have found : (negateOne.scan
      ⟨CompilationUnit.ofDeclarations none [] [signedClass] .empty, .rootOnly⟩).map RuleMatch.fix
        = [some ⟨[⟨⟨38, 40⟩, "-1"⟩], .empty⟩] := by
    decide +kernel
  obtain ⟨m, hm, hf⟩ := List.mem_map.mp (found ▸ List.mem_singleton_self _)
  refine ⟨small, rfl, m, hm, _, hf, rfl, ?_⟩
  exact negateOne.scan_tokens .rootOnly none [] [signedClass] .empty small rfl m hm _ hf

end RefactoringRule

end JavaRefactor
