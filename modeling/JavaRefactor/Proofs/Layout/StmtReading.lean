import JavaRefactor.Proofs.Layout.Reading
import JavaRefactor.Proofs.Layout.StmtTokens

/-!
# Reading statements

A reader for the tokens of plain statements (`Stmt.Phrase.read`).  It goes through the tokens once,
and an `else` belongs to the nearest conditional in front of it that has none.  What it gives back
is the statement without what its nodes carry (`Stmt.bare`).
-/

namespace JavaRefactor

/-! ### Bare statements -/

/-- The declaration without what its nodes carry and without its symbol. -/
def VarDecl.bare (d : VarDecl) : VarDecl :=
  ⟨d.name, d.type.bare, d.init.map Expr.bare, none, d.isFinal⟩

namespace Stmt

mutual

/-- The statement without spans, comments, types and symbols. -/
def bare : Stmt → Stmt
  | block _ ss => block .synthetic (bareEach ss)
  | ifElse _ cond yes none => ifElse .synthetic cond.bare (bare yes) none
  | ifElse _ cond yes (some no) => ifElse .synthetic cond.bare (bare yes) (some (bare no))
  | whileLoop _ cond body => whileLoop .synthetic cond.bare (bare body)
  | doLoop _ body cond => doLoop .synthetic (bare body) cond.bare
  | forLoop _ init cond update body =>
    forLoop .synthetic (bareEach init) (cond.map Expr.bare) (update.map Expr.bare) (bare body)
  | forEach _ var iterable body => forEach .synthetic var.bare iterable.bare (bare body)
  | ret _ value => ret .synthetic (value.map Expr.bare)
  | raise _ value => raise .synthetic value.bare
  | synchronized _ lock body => synchronized .synthetic lock.bare (bare body)
  | expr _ value => expr .synthetic value.bare
  | empty _ => empty .synthetic
  | declare _ decl => declare .synthetic decl.bare

/-- Statements without what they carry. -/
def bareEach : List Stmt → List Stmt
  | [] => []
  | s :: ss => bare s :: bareEach ss

end

/-- What statements carry is left out one by one. -/
theorem bareEach_eq_map (ss : List Stmt) : bareEach ss = ss.map bare := by
  induction ss with
  | nil => rfl
  | cons s ss ih => rw [bareEach, ih, List.map_cons]

end Stmt

namespace Tok

/-! ### The parts of a header -/

/-- The identifier that a name stands for. -/
def ident (name : String) : Expr := .ident .bare name none

/-- A name at the front. -/
def readName : List Tok → Option (Expr × List Tok)
  | .name e :: ts => some (ident e, ts)
  | _ => none

/-- A declaration after its modifier. -/
def readDecl (isFinal : Bool) : List Tok → Option (VarDecl × List Tok)
  | .name type :: .name var :: .mark .equals :: .name init :: ts =>
    some (⟨var, ident type, some (ident init), none, isFinal⟩, ts)
  | .name type :: .name var :: ts => some (⟨var, ident type, none, none, isFinal⟩, ts)
  | _ => none

/-- A statement that can stand in the header of a loop: two names are a declaration. -/
def readSimple (ts : List Tok) : Option (Stmt × List Tok) :=
  match ts with
  | .mark .finalWord :: ts => (readDecl true ts).map fun (d, ts) => (.declare .synthetic d, ts)
  | .name _ :: .name _ :: _ => (readDecl false ts).map fun (d, ts) => (.declare .synthetic d, ts)
  | .name e :: ts => some (.expr .synthetic (ident e), ts)
  | _ => none

/-- What a list with commas is read from. -/
structure Item (α : Type) where
  read : List Tok → Option (α × List Tok)

/-- As many items with commas between them as there are. -/
def Item.readSeparated {α : Type} (item : Item α) (ts : List Tok) :
    Option (List α × List Tok) :=
  match item.read ts with
  | some (a, .mark .comma :: ts) => do
    let (as, ts) ← item |>.readSeparated ts
    return (a :: as, ts)
  | some (a, ts) => some ([a], ts)
  | none => some ([], ts)
partial_fixpoint

/-- The condition and the updates of a counting loop, up to the closing parenthesis of its header,
as the loop with some body. -/
def readLoop (init : List Stmt) (ts : List Tok) : Option ((Stmt → Stmt) × List Tok) := do
  let (cond, ts) := match readName ts with
    | some (cond, ts) => (some cond, ts)
    | none => (none, ts)
  match ts with
  | .mark .semicolon :: ts => do
    let (update, ts) ← Item.mk readName |>.readSeparated ts
    match ts with
    | .mark .closeParen :: ts => return (.forLoop .synthetic init cond update, ts)
    | _ => none
  | _ => none

/-- The header of a loop up to its closing parenthesis, as the loop with some body. -/
def readFor (ts : List Tok) : Option ((Stmt → Stmt) × List Tok) := do
  let (init, ts) ← Item.mk readSimple |>.readSeparated ts
  match ts with
  | .mark .colon :: .name iterable :: .mark .closeParen :: ts =>
    match init with
    | [.declare _ var] => return (.forEach .synthetic var (ident iterable), ts)
    | _ => none
  | .mark .semicolon :: ts => readLoop init ts
  | _ => none

/-- What stands behind an `else` at the front. -/
def afterElse? : List Tok → Option (List Tok)
  | .mark .elseWord :: ts => some ts
  | _ => none

end Tok

namespace Stmt

open Tok

/-- What can be read at the front of some tokens. -/
inductive Phrase where
  | stmt
  /-- A block after some of its statements. -/
  | block (before : List Stmt)

namespace Phrase

/-- The statement that a phrase at the front of some tokens completes, and the tokens after it. -/
def read (phrase : Phrase) (ts : List Tok) : Option (Stmt × List Tok) :=
  match phrase, ts with
  | block before, .mark .closeBrace :: ts => some (.block .synthetic before, ts)
  | block before, ts => do
    let (s, ts) ← stmt |>.read ts
    block (before ++ [s]) |>.read ts
  | stmt, .mark .openBrace :: ts => block [] |>.read ts
  | stmt, .mark .ifWord :: .mark .openParen :: .name cond :: .mark .closeParen :: ts => do
    let (yes, ts) ← stmt |>.read ts
    match afterElse? ts with
    | some ts => do
      let (no, ts) ← stmt |>.read ts
      return (.ifElse .synthetic (ident cond) yes (some no), ts)
    | none => return (.ifElse .synthetic (ident cond) yes none, ts)
  | stmt, .mark .whileWord :: .mark .openParen :: .name cond :: .mark .closeParen :: ts => do
    let (body, ts) ← stmt |>.read ts
    return (.whileLoop .synthetic (ident cond) body, ts)
  | stmt, .mark .doWord :: ts => do
    let (body, ts) ← stmt |>.read ts
    match ts with
    | .mark .whileWord :: .mark .openParen :: .name cond :: .mark .closeParen
        :: .mark .semicolon :: ts =>
      return (.doLoop .synthetic body (ident cond), ts)
    | _ => none
  | stmt, .mark .forWord :: .mark .openParen :: ts => do
    let (loop, ts) ← readFor ts
    let (body, ts) ← stmt |>.read ts
    return (loop body, ts)
  | stmt, .mark .synchronizedWord :: .mark .openParen :: .name lock :: .mark .closeParen :: ts => do
    let (body, ts) ← stmt |>.read ts
    return (.synchronized .synthetic (ident lock) body, ts)
  | stmt, .mark .returnWord :: .mark .semicolon :: ts => some (.ret .synthetic none, ts)
  | stmt, .mark .returnWord :: .name value :: .mark .semicolon :: ts =>
    some (.ret .synthetic (some (ident value)), ts)
  | stmt, .mark .throwWord :: .name value :: .mark .semicolon :: ts =>
    some (.raise .synthetic (ident value), ts)
  | stmt, .mark .semicolon :: ts => some (.empty .synthetic, ts)
  | stmt, ts => do
    let (s, ts) ← readSimple ts
    match ts with
    | .mark .semicolon :: ts => return (s, ts)
    | _ => none
partial_fixpoint

end Phrase

end Stmt

/-! ### The tokens of bare statements -/

/-- A plain expression is an identifier, which its token names. -/
theorem Expr.IsPlain.exists_tok_eq {e : Expr} (h : e.IsPlain) :
    ∃ name, e.tok = .name name ∧ e.bare = Tok.ident name := by
  obtain @⟨i, name, hi, hname, s⟩ := h
  exact ⟨name, Expr.tok_ident i name s, Expr.bare_ident i name s⟩

/-- The token of an expression does not depend on what the expression carries. -/
theorem Expr.IsPlain.tok_bare {e : Expr} (h : e.IsPlain) : e.bare.tok = e.tok := by
  obtain ⟨name, tok, bare⟩ := h.exists_tok_eq
  rw [bare, tok]
  exact tok_ident .bare name none

/-- The tokens of a declaration do not depend on what the declaration carries. -/
theorem VarDecl.IsPlain.toks_bare {d : VarDecl} (h : d.IsPlain) : d.bare.toks = d.toks := by
  obtain ⟨name, type, init, symbol, isFinal⟩ := d
  rw [VarDecl.bare, VarDecl.toks, VarDecl.toks, h.type.tok_bare]
  cases init with
  | none => rfl
  | some init =>
    rw [Option.map_some]
    dsimp only
    rw [(h.init init rfl).tok_bare]

namespace Stmt

/-- Nor do those of a statement in the header of a loop. -/
theorem IsSimple.simpleToks_bare {s : Stmt} (h : s.IsSimple) :
    s.bare.simpleToks = s.simpleToks := by
  cases h with
  | expr hi he => rw [bare, simpleToks, simpleToks, he.tok_bare]
  | declare hi hd => rw [bare, simpleToks, simpleToks, hd.toks_bare]

/-- If the tokens of each of some statements do not depend on it, those of all do not. -/
theorem toksEach_bareEach {ss : List Stmt} (h : ∀ s ∈ ss, s.bare.toks = s.toks) :
    toksEach (bareEach ss) = toksEach ss := by
  induction ss with
  | nil => rfl
  | cons s ss ih =>
    rw [bareEach, toksEach, toksEach, h s List.mem_cons_self,
      ih fun t ht => h t (List.mem_cons_of_mem s ht)]

/-- What the nodes of a plain statement carry has no tokens. -/
theorem toks_bare {s : Stmt} (h : s.IsPlain) : s.bare.toks = s.toks := by
  have option {e : Option Expr} (h : ∀ e' ∈ e, e'.IsPlain) :
      (e.map Expr.bare).toList.map Expr.tok = e.toList.map Expr.tok := by
    cases e with
    | none => rfl
    | some e => exact congrArg (· :: []) (h e rfl).tok_bare
  induction h with
  | simple h => cases h with
    | expr hi he => rw [bare, toks, toks, he.tok_bare]
    | declare hi hd => rw [bare, toks, toks, hd.toks_bare]
  | block _ _ ih => rw [bare, toks, toks, toksEach_bareEach ih]
  | ifThen _ hcond _ ih => rw [bare, toks, toks, headToks, headToks, hcond.tok_bare, ih]
  | ifElse _ hcond _ _ yesIH noIH =>
    rw [bare, toks, toks, headToks, headToks, hcond.tok_bare, yesIH, noIH]
  | whileLoop _ hcond _ ih => rw [bare, toks, toks, headToks, headToks, hcond.tok_bare, ih]
  | doLoop _ _ hcond ih => rw [bare, toks, toks, headToks, headToks, hcond.tok_bare, ih]
  | @forLoop i init cond update body _ hinit hcond hupdate _ ih =>
    have header : (bareEach init).map simpleToks = init.map simpleToks := by
      rw [bareEach_eq_map, List.map_map]
      exact List.map_congr_left fun s hs => (hinit s hs).simpleToks_bare
    have updates : ((update.map Expr.bare).map fun e => [e.tok]) = update.map fun e => [e.tok] := by
      rw [List.map_map]
      exact List.map_congr_left fun e he => congrArg (· :: []) (hupdate e he).tok_bare
    rw [bare, toks, toks, header, option hcond, updates, ih]
  | forEach _ hvar hiterable _ ih => rw [bare, toks, toks, hvar.toks_bare, hiterable.tok_bare, ih]
  | ret _ hvalue => rw [bare, toks, toks, option hvalue]
  | raise _ hvalue => rw [bare, toks, toks, hvalue.tok_bare]
  | synchronized _ hlock _ ih => rw [bare, toks, toks, headToks, headToks, hlock.tok_bare, ih]
  | empty _ => rfl

end Stmt

/-! ### Reading the parts of a header -/

namespace Tok

/-- A plain expression is read from its token. -/
theorem readName_tok {e : Expr} (h : e.IsPlain) (ts : List Tok) :
    readName (e.tok :: ts) = some (e.bare, ts) := by
  obtain ⟨name, tok, bare⟩ := h.exists_tok_eq
  rw [tok, bare, readName]

/-- A declaration ends with its name if nothing is assigned to it. -/
theorem readDecl_name (isFinal : Bool) (type name : String) {m : Mark} (hm : m ≠ .equals)
    (ts : List Tok) : readDecl isFinal (.name type :: .name name :: .mark m :: ts)
      = some (⟨name, ident type, none, none, isFinal⟩, .mark m :: ts) := by
  rw [readDecl]
  rintro init ts ⟨⟩
  exact hm rfl

/-- A declaration is read up to what follows its name or its initial value, and an expression is
no declaration. -/
theorem readSimple_simpleToks {s : Stmt} (h : s.IsSimple) {m : Mark} (hm : m ≠ .equals)
    (ts : List Tok) :
    readSimple (s.simpleToks ++ .mark m :: ts) = some (s.bare, .mark m :: ts) := by
  cases h with
  | expr hi he =>
    obtain ⟨name, tok, bare⟩ := he.exists_tok_eq
    rw [Stmt.simpleToks, tok, Stmt.bare, bare]
    rfl
  | @declare i d hi hd =>
    obtain ⟨name, type, init, symbol, isFinal⟩ := d
    obtain ⟨typeName, typeTok, typeBare⟩ := hd.type.exists_tok_eq
    dsimp only at typeTok typeBare
    have bare : (Stmt.declare i ⟨name, type, init, symbol, isFinal⟩).bare
        = .declare .synthetic ⟨name, ident typeName, init.map Expr.bare, none, isFinal⟩ := by
      rw [Stmt.bare, VarDecl.bare, typeBare]
    rw [Stmt.simpleToks, VarDecl.toks, typeTok, bare]
    cases init with
    | none =>
      have named := readDecl_name isFinal typeName name hm ts
      cases isFinal with
      | true => exact congrArg (Option.map _) named
      | false => exact congrArg (Option.map _) named
    | some init =>
      obtain ⟨initName, initTok, initBare⟩ := (hd.init init rfl).exists_tok_eq
      dsimp only
      rw [initTok, Option.map_some, initBare]
      cases isFinal <;> rfl

variable {α β : Type} {item : Item α} {toks : β → List Tok} {f : β → α}
  {m : Mark}

/-- Items with commas between them are read up to another separator. -/
theorem readSeparated_separated {bs : List β}
    (h : ∀ b ∈ bs, ∀ m ≠ Mark.equals, ∀ ts,
      item.read (toks b ++ .mark m :: ts) = some (f b, .mark m :: ts))
    (none : ∀ ts, item.read (.mark m :: ts) = none) (comma : m ≠ .comma) (equals : m ≠ .equals)
    (ts : List Tok) :
    item.readSeparated (separated (bs.map toks) ++ .mark m :: ts)
      = some (bs.map f, .mark m :: ts) := by
  induction bs with
  | nil =>
    rw [Item.readSeparated, List.map_nil, separated, List.nil_append, none]
    rfl
  | cons b bs ih =>
    have first := h b List.mem_cons_self
    have others := ih fun c hc => h c (List.mem_cons_of_mem b hc)
    cases bs with
    | nil =>
      rw [Item.readSeparated, List.map_cons, List.map_nil, separated, first m equals]
      cases m with
      | comma => exact absurd rfl comma
      | _ => rfl
    | cons c cs =>
      have split : separated ((b :: c :: cs).map toks)
          = toks b ++ .mark .comma :: separated ((c :: cs).map toks) := rfl
      rw [Item.readSeparated, split, List.append_assoc, List.cons_append, first .comma (by decide)]
      dsimp only
      rw [others]
      rfl

/-- The statements in the header of a loop are read up to another separator than a comma. -/
theorem readSeparated_header {init : List Stmt} (h : ∀ s ∈ init, s.IsSimple)
    (none : ∀ ts, readSimple (.mark m :: ts) = none) (comma : m ≠ .comma) (equals : m ≠ .equals)
    (ts : List Tok) :
    (Item.mk readSimple).readSeparated (separated (init.map Stmt.simpleToks) ++ .mark m :: ts)
      = some (init.map Stmt.bare, .mark m :: ts) :=
  readSeparated_separated (fun s hs _ hm ts => readSimple_simpleToks (h s hs) hm ts) none comma
    equals ts

/-- The condition and the updates of a counting loop. -/
theorem readLoop_toks (init : List Stmt) {cond : Option Expr} {update : List Expr}
    (hcond : ∀ e ∈ cond, e.IsPlain) (hupdate : ∀ e ∈ update, e.IsPlain) (ts : List Tok) :
    readLoop init (cond.toList.map Expr.tok
        ++ .mark .semicolon :: (separated (update.map fun e => [e.tok])
          ++ .mark .closeParen :: ts))
      = some (.forLoop .synthetic init (cond.map Expr.bare) (update.map Expr.bare), ts) := by
  have updates : (Item.mk readName).readSeparated
      (separated (update.map fun e => [e.tok]) ++ .mark .closeParen :: ts)
        = some (update.map Expr.bare, .mark .closeParen :: ts) :=
    readSeparated_separated (fun e he m _ ts => readName_tok (hupdate e he) (.mark m :: ts))
      (fun _ => rfl) (by decide) (by decide) ts
  cases cond with
  | none =>
    simp only [Option.toList_none, List.map_nil, List.nil_append, readLoop, readName, updates]
    rfl
  | some cond =>
    simp only [Option.toList_some, List.map_cons, List.map_nil, List.cons_append,
      List.nil_append, readLoop, readName_tok (hcond cond rfl), updates]
    rfl

/-- The header of a counting loop. -/
theorem readFor_loop {init : List Stmt} {cond : Option Expr} {update : List Expr}
    (hinit : ∀ s ∈ init, s.IsSimple) (hcond : ∀ e ∈ cond, e.IsPlain)
    (hupdate : ∀ e ∈ update, e.IsPlain) (ts : List Tok) :
    readFor (separated (init.map Stmt.simpleToks) ++ .mark .semicolon :: (cond.toList.map Expr.tok
        ++ .mark .semicolon :: (separated (update.map fun e => [e.tok])
          ++ .mark .closeParen :: ts)))
      = some (.forLoop .synthetic (init.map Stmt.bare) (cond.map Expr.bare)
          (update.map Expr.bare), ts) := by
  rw [readFor, readSeparated_header hinit (fun _ => rfl) (by decide) (by decide)]
  exact readLoop_toks _ hcond hupdate ts

/-- The header of a loop over the elements of something. -/
theorem readFor_each {var : VarDecl} {iterable : Expr} (hvar : var.IsPlain)
    (hiterable : iterable.IsPlain) (ts : List Tok) :
    readFor (var.toks ++ .mark .colon :: iterable.tok :: .mark .closeParen :: ts)
      = some (.forEach .synthetic var.bare iterable.bare, ts) := by
  obtain ⟨name, tok, bare⟩ := hiterable.exists_tok_eq
  have simple : (Stmt.declare .synthetic var).IsSimple := .declare ⟨rfl, rfl⟩ hvar
  have header : (Item.mk readSimple).readSeparated
      (var.toks ++ .mark .colon :: iterable.tok :: .mark .closeParen :: ts)
        = some ([(Stmt.declare .synthetic var).bare],
            .mark .colon :: iterable.tok :: .mark .closeParen :: ts) :=
    readSeparated_header (List.forall_mem_singleton.mpr simple) (fun _ => rfl) (by decide)
      (by decide) _
  rw [readFor, header, tok, bare]
  rfl

end Tok

/-! ### First tokens -/

namespace Stmt

/-- The first token of a simple statement is a name or the modifier of a declaration. -/
theorem IsSimple.exists_simpleToks {s : Stmt} (h : s.IsSimple) :
    ∃ t ts, s.simpleToks = t :: ts ∧ ((∃ name, t = .name name) ∨ t = .mark .finalWord) := by
  cases h with
  | expr hi he => exact ⟨_, _, rfl, .inl ⟨_, rfl⟩⟩
  | @declare i d hi hd =>
    obtain ⟨name, type, init, symbol, isFinal⟩ := d
    cases isFinal with
    | true => exact ⟨_, _, rfl, .inr rfl⟩
    | false => exact ⟨_, _, rfl, .inl ⟨_, rfl⟩⟩

/-- The first token of a statement neither ends a block nor goes on with a conditional. -/
theorem IsPlain.exists_toks {s : Stmt} (h : s.IsPlain) :
    ∃ t ts, s.toks = t :: ts ∧ t ≠ .mark .closeBrace ∧ t ≠ .mark .elseWord := by
  cases h with
  | simple h =>
    obtain ⟨t, ts, toks, first⟩ := h.exists_simpleToks
    have noMark : t ≠ .mark .closeBrace ∧ t ≠ .mark .elseWord := by
      rcases first with ⟨name, rfl⟩ | rfl <;> exact ⟨nofun, nofun⟩
    cases h with
    | expr hi he => exact ⟨_, _, rfl, nofun, nofun⟩
    | declare hi hd => exact ⟨t, ts ++ [.mark .semicolon], congrArg (· ++ _) toks, noMark⟩
  | _ => exact ⟨_, _, rfl, by decide, by decide⟩

/-! ### Reading the forms of statements -/

namespace Phrase

open Tok

variable {e : Expr} {s yes no body : Stmt} {ts us rest : List Tok}

/-- A conditional is read without a second branch if no `else` follows. -/
theorem read_ifThen (he : e.IsPlain) (hyes : stmt.read ts = some (yes, rest))
    (noElse : rest.head? ≠ some (.mark .elseWord)) :
    stmt.read (headToks .ifWord e ++ ts) = some (.ifElse .synthetic e.bare yes none, rest) := by
  obtain ⟨name, tok, bare⟩ := he.exists_tok_eq
  have ends : afterElse? rest = none := by
    rw [afterElse?]
    rintro ts rfl
    exact noElse rfl
  rw [headToks, tok, bare, List.cons_append, List.cons_append, List.cons_append,
    List.singleton_append, read]
  simp only [hyes, ends, Option.bind_eq_bind, Option.bind_some]
  rfl

/-- A conditional is read with the second branch that follows its `else`. -/
theorem read_ifElse (he : e.IsPlain) (hyes : stmt.read ts = some (yes, .mark .elseWord :: us))
    (hno : stmt.read us = some (no, rest)) :
    stmt.read (headToks .ifWord e ++ ts)
      = some (.ifElse .synthetic e.bare yes (some no), rest) := by
  obtain ⟨name, tok, bare⟩ := he.exists_tok_eq
  rw [headToks, tok, bare, List.cons_append, List.cons_append, List.cons_append,
    List.singleton_append, read]
  simp only [hyes, afterElse?, hno, Option.bind_eq_bind, Option.bind_some]
  rfl

/-- A loop with `while` is read from its head and its body. -/
theorem read_whileLoop (he : e.IsPlain) (hbody : stmt.read ts = some (body, rest)) :
    stmt.read (headToks .whileWord e ++ ts) = some (.whileLoop .synthetic e.bare body, rest) := by
  obtain ⟨name, tok, bare⟩ := he.exists_tok_eq
  rw [headToks, tok, bare, List.cons_append, List.cons_append, List.cons_append,
    List.singleton_append, read, hbody]
  rfl

/-- A synchronized statement is read from its head and its body. -/
theorem read_synchronized (he : e.IsPlain) (hbody : stmt.read ts = some (body, rest)) :
    stmt.read (headToks .synchronizedWord e ++ ts)
      = some (.synchronized .synthetic e.bare body, rest) := by
  obtain ⟨name, tok, bare⟩ := he.exists_tok_eq
  rw [headToks, tok, bare, List.cons_append, List.cons_append, List.cons_append,
    List.singleton_append, read, hbody]
  rfl

/-- A loop with `do` is read from its body and the head behind it. -/
theorem read_doLoop (he : e.IsPlain)
    (hbody : stmt.read ts
      = some (body, headToks .whileWord e ++ .mark .semicolon :: rest)) :
    stmt.read (.mark .doWord :: ts) = some (.doLoop .synthetic body e.bare, rest) := by
  obtain ⟨name, tok, bare⟩ := he.exists_tok_eq
  rw [headToks, tok] at hbody
  rw [bare, read, hbody]
  rfl

/-- A loop with `for` is read from its header and its body. -/
theorem read_for {loop : Stmt → Stmt} (header : readFor ts = some (loop, us))
    (hbody : stmt.read us = some (body, rest)) :
    stmt.read (.mark .forWord :: .mark .openParen :: ts) = some (loop body, rest) := by
  rw [read, header]
  simp only [hbody, Option.bind_eq_bind, Option.bind_some]
  rfl

/-- A return is read with its value, if it has one. -/
theorem read_ret {value : Option Expr} (h : ∀ e ∈ value, e.IsPlain) :
    stmt.read (.mark .returnWord :: value.toList.map Expr.tok ++ .mark .semicolon :: rest)
      = some (.ret .synthetic (value.map Expr.bare), rest) := by
  cases value with
  | none => simp [read]
  | some e =>
    obtain ⟨name, tok, bare⟩ := (h e rfl).exists_tok_eq
    simp [read, tok, bare]

/-- A statement that throws is read with its value. -/
theorem read_raise (he : e.IsPlain) :
    stmt.read (.mark .throwWord :: e.tok :: .mark .semicolon :: rest)
      = some (.raise .synthetic e.bare, rest) := by
  obtain ⟨name, tok, bare⟩ := he.exists_tok_eq
  simp [read, tok, bare]

/-- A declaration or an expression with a semicolon behind it is read as a statement. -/
theorem read_simple (h : s.IsSimple) (rest : List Tok) :
    stmt.read (s.simpleToks ++ .mark .semicolon :: rest) = some (s.bare, rest) := by
  have simple := readSimple_simpleToks h (m := .semicolon) (by decide) rest
  obtain ⟨t, ts, toks, first⟩ := h.exists_simpleToks
  rw [toks] at simple ⊢
  rw [read]
  · rw [simple]
    rfl
  -- No other statement starts with a name or with the modifier of a declaration.
  all_goals rcases first with ⟨name, rfl⟩ | rfl <;> simp

/-- The statements of a block are read one after the other, each in front of the first token of
the next one or of the closing brace. -/
theorem read_toksEach {ss : List Stmt} (plain : ∀ s ∈ ss, s.IsPlain)
    (h : ∀ s ∈ ss, ∀ rest : List Tok, rest.head? ≠ some (.mark .elseWord) →
      stmt.read (s.toks ++ rest) = some (s.bare, rest))
    (before : List Stmt) (rest : List Tok) :
    (block before).read (toksEach ss ++ .mark .closeBrace :: rest)
      = some (.block .synthetic (before ++ bareEach ss), rest) := by
  induction ss generalizing before with
  | nil => rw [toksEach, List.nil_append, read, bareEach, List.append_nil]
  | cons s ss ih =>
    have others := ih (fun t ht => plain t (List.mem_cons_of_mem s ht))
      (fun t ht => h t (List.mem_cons_of_mem s ht)) (before ++ [s.bare])
    have noElse : (toksEach ss ++ .mark .closeBrace :: rest).head? ≠ some (.mark .elseWord) := by
      cases ss with
      | nil => simp [toksEach]
      | cons t ts =>
        obtain ⟨first, more, toks, -, noElse⟩ :=
          (plain t (List.mem_cons_of_mem s List.mem_cons_self)).exists_toks
        simpa [toksEach, toks] using noElse
    have first := h s List.mem_cons_self _ noElse
    obtain ⟨t, ts, toks, noBrace, -⟩ := (plain s List.mem_cons_self).exists_toks
    rw [toks] at first
    rw [toksEach, List.append_assoc, toks, read]
    · rw [List.append_assoc, List.singleton_append] at others
      rw [first, bareEach]
      exact others
    · simp [noBrace]

end Phrase

end Stmt

end JavaRefactor
