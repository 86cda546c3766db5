import JavaRefactor.Proofs.Layout.StmtTokens

/-!
# Statements are written with their tokens

Wherever a plain statement stands and however deep it is indented, its text has its tokens
(`Stmt.map_ofText_javaTokens_renderAll`).  What carries this through the parts of a statement is
what may follow them: behind a name there stands white space or a separator, and behind everything
else anything (`Layout.Writes`, `Layout.WritesApart`).
-/

namespace JavaRefactor

/-! ### What layouts write -/

namespace Layout

/-- The text of some layouts has some tokens, if what stands behind it starts with a character of
some kind. -/
def Writes (next : Char → Bool) (ls : List Layout) (ts : List Tok) : Prop :=
  ∃ words, Spells next (textOf ls) words ∧ words.map Tok.ofText = ts

/-- The text of some layouts has some tokens whatever stands behind it. -/
def WritesApart (ls : List Layout) (ts : List Tok) : Prop := Writes (fun _ => true) ls ts

/-- The text of some layouts starts with a character that cannot go on with a word. -/
def EndsWord (ls : List Layout) : Prop := StartsWith endsWord (textOf ls) ∧ textOf ls ≠ ""

/-- One text alone is the text. -/
theorem textOf_text (s : String) : textOf [.text s] = s := by
  rw [textOf, textOf, toText, String.append_empty]

/-- Layouts end a word if the text that they start with does. -/
theorem endsWord_text {s : String} (h : StartsWith endsWord s ∧ s ≠ "") (ls : List Layout) :
    EndsWord (.text s :: ls) := by
  have whole : textOf (.text s :: ls) = s ++ textOf ls := by rw [textOf, toText]
  refine ⟨?_, ?_⟩
  · rw [whole]
    exact h.1.append_left h.2
  · rw [whole]
    intro empty
    exact h.2 (String.append_eq_empty_iff.mp empty).1

variable {next : Char → Bool} {ls ls' : List Layout} {ts us : List Tok}

/-- Two groups of layouts side by side write the tokens of both, if the second one ends a word. -/
theorem Writes.append (hs : Writes endsWord ls ts) (ht : Writes next ls' us)
    (ends : EndsWord ls') : Writes next (ls ++ ls') (ts ++ us) := by
  obtain ⟨words, spells, rfl⟩ := hs
  obtain ⟨words', spells', rfl⟩ := ht
  refine ⟨words ++ words', ?_, List.map_append⟩
  rw [textOf_append]
  exact spells.append spells' ends.1 ends.2

/-- What ends a word and may be followed by anything closes what stands in front of it. -/
theorem Writes.close (hs : Writes endsWord ls ts) (ht : WritesApart ls' us)
    (ends : EndsWord ls') : WritesApart (ls ++ ls') (ts ++ us) :=
  Writes.append hs ht ends

namespace WritesApart

/-- What may be followed by anything may be followed by characters of some kind. -/
theorem writes (h : WritesApart ls ts) : Writes next ls ts := by
  obtain ⟨words, spells, rfl⟩ := h
  exact ⟨words, SpellsApart.spells spells, rfl⟩

/-- What may be followed by anything may stand before other layouts. -/
theorem before (hs : WritesApart ls ts) (ht : Writes next ls' us) :
    Writes next (ls ++ ls') (ts ++ us) := by
  obtain ⟨words, spells, rfl⟩ := hs
  obtain ⟨words', spells', rfl⟩ := ht
  refine ⟨words ++ words', ?_, List.map_append⟩
  rw [textOf_append]
  exact SpellsApart.append spells spells'

/-- Two groups that may be followed by anything give a group that may be. -/
theorem append (hs : WritesApart ls ts) (ht : WritesApart ls' us) :
    WritesApart (ls ++ ls') (ts ++ us) :=
  hs.before ht

/-- No layouts write no tokens. -/
theorem nil : WritesApart [] [] := ⟨[], SpellsApart.empty, rfl⟩

/-- A text that ends in white space or in a separator. -/
theorem text {s : String}
    (h : (lastLexeme s).standsApart = true ∧ (javaTokens s).map Tok.ofText = ts) :
    WritesApart [.text s] ts := by
  refine ⟨javaTokens s, ?_, h.2⟩
  rw [textOf_text]
  exact spellsApart_of_standsApart h.1

/-- White space writes no tokens. -/
theorem white {s : String} (h : IsWhite s) : WritesApart [.text s] [] := by
  refine ⟨[], ?_, rfl⟩
  rw [textOf_text]
  exact h.spellsApart

end WritesApart

/-- Marking layouts as those of a syntax node does not change what they write. -/
theorem Writes.node (h : Writes next ls ts) : Writes next [.node ls] ts := by
  rw [Writes, textOf, textOf, toText, String.append_empty]
  exact h

/-- The same holds for layouts that may be followed by anything. -/
theorem WritesApart.node (h : WritesApart ls ts) : WritesApart [.node ls] ts := Writes.node h

/-- A word is written as its own token, if no other word follows at once. -/
theorem writes_word {s : String} (h : IsWord s) : Writes endsWord [.text s] [Tok.ofText s] := by
  refine ⟨[s], ?_, rfl⟩
  rw [textOf_text]
  exact h.spells

/-- An identifier is written as a name, if no other word follows at once. -/
theorem writes_identifier {s : String} (h : IsIdentifier s) :
    Writes endsWord [.text s] [.name s] := by
  have name : Tok.ofText s = .name s := by rw [Tok.ofText, h.noMark]
  exact name ▸ writes_word h.toIsWord

/-- Groups with a comma between each two. -/
theorem writes_separated {lss : List (List Layout)} {tss : List (List Tok)}
    (h : List.Forall₂ (Writes endsWord) lss tss) :
    Writes endsWord (separated ", " lss) (Tok.separated tss) := by
  have comma : WritesApart [.text ", "] [.mark .comma] := .text (by decide +kernel)
  induction h with
  | nil => exact WritesApart.nil.writes
  | cons first rest ih =>
    cases rest with
    | nil => exact first
    | cons second rest =>
      exact first.append (comma.before ih) (endsWord_text (by decide) _)

end Layout

open Layout

/-! ### Names and declarations -/

namespace Expr.IsPlain

variable {e : Expr}

/-- A plain expression writes the one token that it has. -/
theorem writes (h : e.IsPlain) (source : Option String) :
    Writes endsWord [e.layout source] [e.tok] := by
  obtain @⟨i, name, hi, hname, s⟩ := h
  rw [tok_ident, layout, captureOr, sourceText?, if_pos hi]
  exact (writes_identifier hname).node

/-- A plain expression never gets parentheses. -/
theorem encloseAt (h : e.IsPlain) (level : Nat) (inner : Layout) :
    encloseAt level e inner = [inner] := by
  obtain @⟨i, name, hi, hname, s⟩ := h
  exact if_neg (Nat.not_lt_zero level)

end Expr.IsPlain

/-- Identifiers with a comma between each two. -/
theorem Expr.writes_layoutArgs (source : Option String) {es : List Expr}
    (h : ∀ e ∈ es, e.IsPlain) :
    Writes endsWord (separated ", " (layoutArgs source es))
      (Tok.separated (es.map fun e => [e.tok])) := by
  refine writes_separated ?_
  induction es with
  | nil => exact .nil
  | cons e es ih =>
    have first := h e List.mem_cons_self
    rw [layoutArgs, first.encloseAt]
    exact .cons (first.writes source) (ih fun d hd => h d (List.mem_cons_of_mem e hd))

/-- A plain declaration writes its tokens. -/
theorem VarDecl.IsPlain.writes {d : VarDecl} (h : d.IsPlain) (source : Option String) :
    Writes endsWord (d.layout source) d.toks := by
  have final : WritesApart [.text "final "] [.mark .finalWord] := .text (by decide +kernel)
  have space : WritesApart [.text " "] [] := .white (by decide)
  have declared : Writes endsWord ((if d.isFinal then [.text "final "] else [])
      ++ [d.type.layout source, .text " ", .text d.name])
      ((if d.isFinal then [.mark .finalWord] else []) ++ [d.type.tok, .name d.name]) := by
    have named := (h.type.writes source).append (space.before (writes_identifier h.name))
      (endsWord_text (by decide) _)
    cases d.isFinal with
    | true => exact final.before named
    | false => exact named
  rw [VarDecl.layout, VarDecl.toks]
  cases hinit : d.init with
  | none =>
    dsimp only
    rw [List.append_nil, List.append_nil]
    exact declared
  | some init =>
    have plain := h.init init hinit
    have equals : WritesApart [.text " = "] [.mark .equals] := .text (by decide +kernel)
    dsimp only
    rw [plain.encloseAt]
    exact declared.append (equals.before (plain.writes source)) (endsWord_text (by decide) _)

/-! ### Indentation -/

namespace Indent

variable {ind : Indent}

/-- The start of a new line is white space, if the indentation of the place is. -/
theorem isWhite_newline (h : IsWhite ind.base) : IsWhite ind.newline := by
  have levels (n : Nat) : IsWhite (String.join (List.replicate n step)) := by
    induction n with
    | zero => decide
    | succ n ih =>
      rw [List.replicate_succ, String.join_cons]
      exact .append (by decide) ih
  exact .append (.append (by decide) h) (levels ind.depth)

/-- The start of a new line is not empty. -/
theorem newline_ne_empty (ind : Indent) : ind.newline ≠ "" := by
  rw [newline, Ne, String.append_eq_empty_iff, String.append_eq_empty_iff]
  exact fun h => absurd h.1.1 (by decide)

/-- The body of a statement has the indentation that its place has. -/
theorem base_ofBody (ind : Indent) (body : Stmt) : (ind.ofBody body).base = ind.base := by
  rw [ofBody]
  split <;> rfl

/-- What stands before a body is white space. -/
theorem isWhite_beforeBody (h : IsWhite ind.base) (body : Stmt) :
    IsWhite (ind.beforeBody body) := by
  rw [beforeBody]
  split
  · decide
  · exact isWhite_newline h

/-- Something stands before a body. -/
theorem beforeBody_ne_empty (ind : Indent) (body : Stmt) : ind.beforeBody body ≠ "" := by
  rw [beforeBody]
  split
  · decide
  · exact newline_ne_empty _

end Indent

/-! ### Statements -/

/-- A plain statement is printed from its parts, with no comments and nothing copied. -/
theorem StmtInfo.IsPlain.captureOrPrint {i : StmtInfo} (h : i.IsPlain) (source : Option String)
    (ind : Indent) (inHeader : Bool) (parts : List Layout) :
    Stmt.captureOrPrint source i ind inHeader parts = [.node parts] := by
  rw [Stmt.captureOrPrint, sourceText?, if_pos h.span]
  dsimp only
  cases inHeader with
  | true => rfl
  | false => rw [if_neg Bool.false_ne_true, h.comments]; rfl

namespace Stmt

variable {source : Option String} {ind : Indent}

/-- The indentation of a body is white space, as that of its place is. -/
theorem isWhite_ofBody (white : IsWhite ind.base) (body : Stmt) :
    IsWhite (ind.ofBody body).base :=
  (ind.base_ofBody body).symm ▸ white

/-- The gap before a body. -/
theorem writesApart_beforeBody (white : IsWhite ind.base) (body : Stmt) :
    WritesApart [.text (ind.beforeBody body)] [] :=
  .white (Indent.isWhite_beforeBody white body)

/-- What stands before a body ends a word. -/
theorem endsWord_beforeBody (white : IsWhite ind.base) (body : Stmt) (ls : List Layout) :
    EndsWord (.text (ind.beforeBody body) :: ls) :=
  endsWord_text ⟨(Indent.isWhite_beforeBody white body).startsWith, ind.beforeBody_ne_empty body⟩ ls

theorem writesApart_if : WritesApart [.text "if ("] [.mark .ifWord, .mark .openParen] :=
  .text (by decide +kernel)

theorem writesApart_while : WritesApart [.text "while ("] [.mark .whileWord, .mark .openParen] :=
  .text (by decide +kernel)

theorem writesApart_for : WritesApart [.text "for ("] [.mark .forWord, .mark .openParen] :=
  .text (by decide +kernel)

/-- A blank writes no tokens. -/
theorem writesApart_space : WritesApart [.text " "] [] := .white (by decide)

/-- The start of a new line writes no tokens. -/
theorem writesApart_newline (white : IsWhite ind.base) : WritesApart [.text ind.newline] [] :=
  .white (Indent.isWhite_newline white)

theorem writesApart_closeParen : WritesApart [.text ")"] [.mark .closeParen] :=
  .text (by decide +kernel)

theorem writesApart_semicolon : WritesApart [.text ";"] [.mark .semicolon] :=
  .text (by decide +kernel)

variable (source) in
/-- A keyword with an identifier in parentheses behind it, and the gap before the body. -/
theorem writesApart_head {keyword : Mark} {opening : String} {e : Expr}
    (hopening : WritesApart [.text opening] [.mark keyword, .mark .openParen]) (he : e.IsPlain)
    (white : IsWhite ind.base) (body : Stmt) :
    WritesApart [.text opening, e.layout source, .text ")", .text (ind.beforeBody body)]
      (headToks keyword e) :=
  hopening.append ((he.writes source).close
    (writesApart_closeParen.append (writesApart_beforeBody white body))
    (endsWord_text (by decide) _))

variable (source ind) in
/-- A statement in the header of a loop. -/
theorem IsSimple.writes {s : Stmt} (h : s.IsSimple) :
    Writes endsWord (layout source ind true s) s.simpleToks := by
  cases h with
  | expr hi he =>
    rw [layout, hi.captureOrPrint]
    exact (he.writes source).node
  | declare hi hd =>
    rw [layout, hi.captureOrPrint, terminator, if_pos rfl, List.append_nil]
    exact (hd.writes source).node

variable (source ind) in
/-- Statements in the header of a loop write their tokens, with a comma between each two. -/
theorem writes_layoutHeader {ss : List Stmt} (h : ∀ s ∈ ss, s.IsSimple) :
    Writes endsWord (separated ", " (layoutHeader source ind ss))
      (Tok.separated (ss.map simpleToks)) := by
  refine writes_separated ?_
  induction ss with
  | nil => exact .nil
  | cons s ss ih =>
    exact .cons ((h s List.mem_cons_self).writes source ind)
      (ih fun t ht => h t (List.mem_cons_of_mem s ht))

/-- Statements on lines of their own. -/
theorem writesApart_layoutLines {ss : List Stmt} (white : IsWhite ind.base)
    (h : ∀ s ∈ ss, WritesApart (layout source ind false s) s.toks) :
    WritesApart (layoutLines source ind ss) (toksEach ss) := by
  induction ss with
  | nil => exact .nil
  | cons s ss ih =>
    exact (writesApart_newline white).append ((h s List.mem_cons_self).append
      (ih fun t ht => h t (List.mem_cons_of_mem s ht)))

/-- The keyword between the branches of a conditional. -/
theorem writesApart_otherwise (white : IsWhite ind.base) (yes no : Stmt) :
    WritesApart [.text (if yes.isBlock then " else" else ind.newline ++ "else"),
      .text (if no.isIf then " " else ind.beforeBody no)] [.mark .elseWord] := by
  have word : Spells endsWord "else" ["else"] := IsWord.spells (by decide)
  have otherwise : Writes endsWord
      [.text (if yes.isBlock then " else" else ind.newline ++ "else")] [.mark .elseWord] := by
    refine ⟨["else"], ?_, by decide⟩
    rw [textOf_text]
    split
    · have split : " else" = " " ++ "else" := by decide
      rw [split]
      exact (by decide : IsWhite " ").spellsApart.append word
    · exact (Indent.isWhite_newline white).spellsApart.append word
  by_cases chained : no.isIf = true
  · rw [if_pos chained]
    exact otherwise.close (.white (by decide)) (endsWord_text (by decide) _)
  · rw [if_neg chained]
    exact otherwise.close (writesApart_beforeBody white no) (endsWord_beforeBody white no _)

/-- The end of a loop that tests behind its body. -/
theorem writesApart_doTest {cond : Expr} (hcond : cond.IsPlain) (white : IsWhite ind.base)
    (body : Stmt) :
    WritesApart [.text (if body.isBlock then " " else ind.newline), .text "while (",
      cond.layout source, .text ");"] (headToks .whileWord cond ++ [.mark .semicolon]) := by
  have gap : WritesApart [.text (if body.isBlock then " " else ind.newline)] [] := by
    split
    · exact writesApart_space
    · exact writesApart_newline white
  have closing : WritesApart [.text ");"] [.mark .closeParen, .mark .semicolon] :=
    .text (by decide +kernel)
  have test := (hcond.writes source).close closing (endsWord_text (by decide) _)
  exact gap.append (writesApart_while.append test)

variable (source) in
/-- The header of a counting loop, and the gap before its body. -/
theorem writesApart_forLoop {init : List Stmt} {cond : Option Expr} {update : List Expr}
    (hinit : ∀ s ∈ init, s.IsSimple) (hcond : ∀ e ∈ cond, e.IsPlain)
    (hupdate : ∀ e ∈ update, e.IsPlain) (white : IsWhite ind.base) (body : Stmt) :
    WritesApart ([.text "for ("] ++ separated ", " (layoutHeader source ind init) ++ [.text ";"]
        ++ (match cond with
            | some cond => [.text " ", cond.layout source]
            | none => [])
        ++ [.text ";"]
        ++ (if update.isEmpty then []
            else .text " " :: separated ", " (Expr.layoutArgs source update))
        ++ [.text ")", .text (ind.beforeBody body)])
      ([.mark .forWord, .mark .openParen] ++ Tok.separated (init.map simpleToks)
        ++ [.mark .semicolon] ++ cond.toList.map Expr.tok ++ [.mark .semicolon]
        ++ Tok.separated (update.map fun e => [e.tok]) ++ [.mark .closeParen]) := by
  have header := (writesApart_for.before (writes_layoutHeader source ind hinit)).close
    writesApart_semicolon (endsWord_text (by decide) _)
  have test : Writes endsWord (match cond with
      | some cond => [.text " ", cond.layout source]
      | none => []) (cond.toList.map Expr.tok) := by
    cases cond with
    | none => exact WritesApart.nil.writes
    | some e => exact writesApart_space.before ((hcond e rfl).writes source)
  have updates : Writes endsWord (if update.isEmpty then []
      else .text " " :: separated ", " (Expr.layoutArgs source update))
      (Tok.separated (update.map fun e => [e.tok])) := by
    have all := writesApart_space.before (Expr.writes_layoutArgs source hupdate)
    cases update with
    | nil => exact WritesApart.nil.writes
    | cons e es => exact all
  have tested := (header.before test).close writesApart_semicolon (endsWord_text (by decide) _)
  exact (tested.before updates).close
    (writesApart_closeParen.append (writesApart_beforeBody white body))
    (endsWord_text (by decide) _)

variable (source) in
/-- The header of a loop over the elements of something, and the gap before its body. -/
theorem writesApart_forEach {var : VarDecl} {iterable : Expr} (hvar : var.IsPlain)
    (hiterable : iterable.IsPlain) (white : IsWhite ind.base) (body : Stmt) :
    WritesApart ([.text "for ("] ++ var.layout source
        ++ [.text " : ", iterable.layout source, .text ")", .text (ind.beforeBody body)])
      ([.mark .forWord, .mark .openParen] ++ var.toks
        ++ [.mark .colon, iterable.tok, .mark .closeParen]) := by
  have colon : WritesApart [.text " : "] [.mark .colon] := .text (by decide +kernel)
  have range := colon.append ((hiterable.writes source).close
    (writesApart_closeParen.append (writesApart_beforeBody white body))
    (endsWord_text (by decide) _))
  exact (writesApart_for.before (hvar.writes source)).close range (endsWord_text (by decide) _)

/-- Something plain with a semicolon behind it. -/
theorem writesApart_terminated {ls : List Layout} {ts : List Tok} (h : Writes endsWord ls ts) :
    WritesApart (ls ++ [.text ";"]) (ts ++ [.mark .semicolon]) :=
  h.close writesApart_semicolon (endsWord_text (by decide) _)

/-- The layout of a plain statement has its tokens, wherever it stands. -/
theorem IsPlain.writesApart {s : Stmt} (h : s.IsPlain) (white : IsWhite ind.base) :
    WritesApart (layout source ind false s) s.toks := by
  induction h generalizing ind with
  | simple h =>
    cases h with
    | expr hi he =>
      rw [layout, hi.captureOrPrint]
      exact (writesApart_terminated (he.writes source)).node
    | declare hi hd =>
      rw [layout, hi.captureOrPrint]
      exact (writesApart_terminated (hd.writes source)).node
  | @block i ss hi _ ih =>
    cases ss with
    | nil =>
      have braces : WritesApart [.text "\x7b\x7d"] [.mark .openBrace, .mark .closeBrace] :=
        .text (by decide +kernel)
      rw [layout, hi.captureOrPrint]
      exact braces.node
    | cons s ss =>
      have opening : WritesApart [.text "\x7b"] [.mark .openBrace] := .text (by decide +kernel)
      have closing : WritesApart [.text "\x7d"] [.mark .closeBrace] := .text (by decide +kernel)
      have lines : WritesApart (layoutLines source ind.deeper (s :: ss)) (toksEach (s :: ss)) :=
        writesApart_layoutLines white fun t ht => ih t ht white
      rw [layout, hi.captureOrPrint]
      exact ((opening.append lines).append ((writesApart_newline white).append closing)).node
  | @ifThen i cond yes hi hcond _ yesIH =>
    have head := writesApart_head source writesApart_if hcond white yes
    rw [layout, hi.captureOrPrint]
    exact (head.append (yesIH (isWhite_ofBody white yes))).node
  | @ifElse i cond yes no hi hcond _ _ yesIH noIH =>
    have head := writesApart_head source writesApart_if hcond white yes
    have first := head.append (yesIH (isWhite_ofBody white yes))
    have inNo : IsWhite (if no.isIf then ind else ind.ofBody no).base := by
      split
      · exact white
      · exact isWhite_ofBody white no
    rw [layout, hi.captureOrPrint]
    exact ((first.append (writesApart_otherwise white yes no)).append (noIH inNo)).node
  | @whileLoop i cond body hi hcond _ ih =>
    have head := writesApart_head source writesApart_while hcond white body
    rw [layout, hi.captureOrPrint]
    exact (head.append (ih (isWhite_ofBody white body))).node
  | @doLoop i body cond hi _ hcond ih =>
    have word : IsWord "do" := by decide
    have start : WritesApart [.text "do", .text (ind.beforeBody body)] [.mark .doWord] :=
      (writes_word word).close (writesApart_beforeBody white body)
        (endsWord_beforeBody white body _)
    rw [layout, hi.captureOrPrint]
    exact ((start.append (ih (isWhite_ofBody white body))).append
      (writesApart_doTest hcond white body)).node
  | @forLoop i init cond update body hi hinit hcond hupdate _ ih =>
    have head := writesApart_forLoop source hinit hcond hupdate white body
    have whole := (head.append (ih (isWhite_ofBody white body))).node
    -- The layout of a loop is given for each form of its header.
    cases cond with
    | none =>
      rw [layout, hi.captureOrPrint]
      exact whole
    | some e =>
      rw [layout, hi.captureOrPrint]
      exact whole
  | @forEach i var iterable body hi hvar hiterable _ ih =>
    have head := writesApart_forEach source hvar hiterable white body
    rw [layout, hi.captureOrPrint]
    exact (head.append (ih (isWhite_ofBody white body))).node
  | @ret i value hi hvalue =>
    have word : Writes endsWord [.text "return"] [.mark .returnWord] := writes_word (by decide)
    cases value with
    | none =>
      rw [layout, hi.captureOrPrint]
      exact (writesApart_terminated word).node
    | some e =>
      have value := writesApart_space.append (writesApart_terminated ((hvalue e rfl).writes source))
      rw [layout, hi.captureOrPrint]
      exact (word.close value (endsWord_text (by decide) _)).node
  | @raise i value hi hvalue =>
    have opening : WritesApart [.text "throw "] [.mark .throwWord] := .text (by decide +kernel)
    rw [layout, hi.captureOrPrint]
    exact (opening.append (writesApart_terminated (hvalue.writes source))).node
  | @synchronized i lock body hi hlock _ ih =>
    have opening : WritesApart [.text "synchronized ("]
        [.mark .synchronizedWord, .mark .openParen] := .text (by decide +kernel)
    have head := writesApart_head source opening hlock white body
    rw [layout, hi.captureOrPrint]
    exact (head.append (ih (isWhite_ofBody white body))).node
  | empty hi =>
    rw [layout, hi.captureOrPrint]
    exact writesApart_semicolon.node

/-- Plain statements that are printed one to a line have their tokens, whatever white space the
lines start with. -/
theorem map_ofText_javaTokens_renderAll {ss : List Stmt} (h : ∀ s ∈ ss, s.IsPlain)
    (source : String) {indent : String} (white : IsWhite indent) :
    (javaTokens (renderAll source indent ss)).map Tok.ofText = toksEach ss := by
  have each : WritesApart (separated (Indent.newline ⟨indent, 0⟩)
      (ss.map fun s => layout (some source) ⟨indent, 0⟩ false s)) (toksEach ss) := by
    have line : WritesApart [.text (Indent.newline ⟨indent, 0⟩)] [] := writesApart_newline white
    induction ss with
    | nil => exact .nil
    | cons s ss ih =>
      have first : WritesApart (layout (some source) ⟨indent, 0⟩ false s) s.toks :=
        (h s List.mem_cons_self).writesApart white
      have others := ih fun t ht => h t (List.mem_cons_of_mem s ht)
      cases ss with
      | nil =>
        rw [toksEach, toksEach, List.append_nil]
        exact first
      | cons t ts => exact first.append (line.append others)
  obtain ⟨words, spells, whole⟩ := each
  rw [renderAll, spells.javaTokens_eq, whole]

end Stmt

end JavaRefactor
