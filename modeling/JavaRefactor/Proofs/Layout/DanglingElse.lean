import JavaRefactor.Proofs.Layout.StmtReading
import JavaRefactor.Proofs.Layout.StmtWriting

/-!
# The dangling `else`

An `else` belongs to the nearest conditional in front of it that has none, whatever the lines and
their indentation look like.  The printer puts the `else` of a conditional behind its first branch
as it is, so where that branch ends in a conditional without an `else`, the text is that of another
statement (`Stmt.regroup`).  Everything else about a plain statement can be told from its tokens:
two sequences of statements are printed with the same tokens exactly if they are regrouped to the
same statements, up to what nodes carry (`Stmt.javaTokens_renderAll_eq_iff`).
-/

namespace JavaRefactor

namespace Stmt

open Tok

/-- Whether an `else` behind the statement would belong to a conditional at its end. -/
def endsOpen : Stmt → Bool
  | ifElse _ _ _ none => true
  | ifElse _ _ _ (some no) => endsOpen no
  | whileLoop _ _ body | forLoop _ _ _ _ body | forEach _ _ _ body | synchronized _ _ body =>
    endsOpen body
  | _ => false

/-- Whether the `else` of a conditional stands behind a statement that it would belong to. -/
def elseDangles : Stmt → Bool
  | ifElse _ _ yes (some _) => yes.endsOpen
  | _ => false

/-- No `else` in the statement stands behind a statement that it would belong to. -/
def NoDanglingElse (s : Stmt) : Prop := ∀ t ∈ s.stmts, t.elseDangles = false

/-- The statement with an `else` behind it, which belongs to the last conditional without one. -/
def withElse : Stmt → Stmt → Stmt
  | ifElse i cond yes none, no =>
    if endsOpen yes then ifElse i cond (withElse yes no) none else ifElse i cond yes (some no)
  | ifElse i cond yes (some other), no => ifElse i cond yes (some (withElse other no))
  | whileLoop i cond body, no => whileLoop i cond (withElse body no)
  | forLoop i init cond update body, no => forLoop i init cond update (withElse body no)
  | forEach i var iterable body, no => forEach i var iterable (withElse body no)
  | synchronized i lock body, no => synchronized i lock (withElse body no)
  | s, _ => s

mutual

/-- The statement as it is read: every `else` belongs to the nearest conditional in front of it
that has none. -/
def regroup : Stmt → Stmt
  | block i ss => block i (regroupEach ss)
  | ifElse i cond yes none => ifElse i cond (regroup yes) none
  | ifElse i cond yes (some no) =>
    if endsOpen (regroup yes) then ifElse i cond (withElse (regroup yes) (regroup no)) none
    else ifElse i cond (regroup yes) (some (regroup no))
  | whileLoop i cond body => whileLoop i cond (regroup body)
  | doLoop i body cond => doLoop i (regroup body) cond
  | forLoop i init cond update body => forLoop i init cond update (regroup body)
  | forEach i var iterable body => forEach i var iterable (regroup body)
  | synchronized i lock body => synchronized i lock (regroup body)
  | s => s

/-- Statements as they are read. -/
def regroupEach : List Stmt → List Stmt
  | [] => []
  | s :: ss => regroup s :: regroupEach ss

end

/-! ### Statements without a dangling `else` -/

/-- No `else` dangles in a statement if its own does not and none does in its parts. -/
theorem noDanglingElse_iff (s : Stmt) : s.NoDanglingElse
    ↔ s.elseDangles = false ∧ ∀ c, StmtPart.stmt c ∈ s.children → c.NoDanglingElse := by
  rw [NoDanglingElse, stmts_eq, List.forall_mem_cons]
  refine and_congr_right fun _ => ?_
  constructor
  · intro h c hc t ht
    exact h t (List.mem_flatMap.mpr ⟨.stmt c, hc, ht⟩)
  · intro h t ht
    obtain ⟨part, hpart, ht⟩ := List.mem_flatMap.mp ht
    cases part with
    | expr e => cases ht
    | stmt c => exact h c hpart t ht

/-- No `else` dangles in a block if none does in its statements. -/
@[simp] theorem noDanglingElse_block (i : StmtInfo) (ss : List Stmt) :
    (block i ss).NoDanglingElse ↔ ∀ s ∈ ss, s.NoDanglingElse := by
  simp [noDanglingElse_iff (block i ss), elseDangles, children]

/-- A conditional without a second branch has no `else` of its own. -/
@[simp] theorem noDanglingElse_ifThen (i : StmtInfo) (cond : Expr) (yes : Stmt) :
    (ifElse i cond yes none).NoDanglingElse ↔ yes.NoDanglingElse := by
  simp [noDanglingElse_iff (ifElse ..), elseDangles, children]

/-- The `else` of a conditional dangles behind a branch that ends in an open conditional. -/
@[simp] theorem noDanglingElse_ifElse (i : StmtInfo) (cond : Expr) (yes no : Stmt) :
    (ifElse i cond yes (some no)).NoDanglingElse
      ↔ yes.endsOpen = false ∧ yes.NoDanglingElse ∧ no.NoDanglingElse := by
  simp [noDanglingElse_iff (ifElse ..), elseDangles, children]

/-- No `else` dangles in a loop with `while` if none does in its body. -/
@[simp] theorem noDanglingElse_whileLoop (i : StmtInfo) (cond : Expr) (body : Stmt) :
    (whileLoop i cond body).NoDanglingElse ↔ body.NoDanglingElse := by
  simp [noDanglingElse_iff (whileLoop ..), elseDangles, children]

/-- No `else` dangles in a loop with `do` if none does in its body. -/
@[simp] theorem noDanglingElse_doLoop (i : StmtInfo) (body : Stmt) (cond : Expr) :
    (doLoop i body cond).NoDanglingElse ↔ body.NoDanglingElse := by
  simp [noDanglingElse_iff (doLoop ..), elseDangles, children]

/-- There is no `else` in a statement that can stand in the header of a loop. -/
theorem IsSimple.noDanglingElse {s : Stmt} (h : s.IsSimple) : s.NoDanglingElse := by
  rw [noDanglingElse_iff]
  cases h <;> simp [elseDangles, children]

/-- No `else` dangles in a loop with `for` if none does in its header and in its body. -/
@[simp] theorem noDanglingElse_forLoop (i : StmtInfo) (init : List Stmt) (cond : Option Expr)
    (update : List Expr) (body : Stmt) : (forLoop i init cond update body).NoDanglingElse
      ↔ (∀ s ∈ init, s.NoDanglingElse) ∧ body.NoDanglingElse := by
  simp [noDanglingElse_iff (forLoop ..), elseDangles, children, or_imp, forall_and]

/-- No `else` dangles in a loop over a collection if none does in its body. -/
@[simp] theorem noDanglingElse_forEach (i : StmtInfo) (var : VarDecl) (iterable : Expr)
    (body : Stmt) : (forEach i var iterable body).NoDanglingElse ↔ body.NoDanglingElse := by
  simp [noDanglingElse_iff (forEach ..), elseDangles, children]

/-- No `else` dangles in a synchronized statement if none does in its body. -/
@[simp] theorem noDanglingElse_synchronized (i : StmtInfo) (lock : Expr) (body : Stmt) :
    (synchronized i lock body).NoDanglingElse ↔ body.NoDanglingElse := by
  simp [noDanglingElse_iff (synchronized ..), elseDangles, children]

/-! ### An `else` behind a statement -/

section WithElse

variable {s no : Stmt}

/-- A plain statement is plain with an `else` behind it. -/
theorem IsPlain.withElse (h : s.IsPlain) (hno : no.IsPlain) : (s.withElse no).IsPlain := by
  induction h with
  | simple h => cases h with
    | expr hi he => exact .simple (.expr hi he)
    | declare hi hd => exact .simple (.declare hi hd)
  | block hi hss => exact .block hi hss
  | ifThen hi hcond hyes ih =>
    rw [Stmt.withElse]
    split
    · exact .ifThen hi hcond ih
    · exact .ifElse hi hcond hyes hno
  | ifElse hi hcond hyes _ _ ih => exact .ifElse hi hcond hyes ih
  | whileLoop hi hcond _ ih => exact .whileLoop hi hcond ih
  | doLoop hi hbody hcond => exact .doLoop hi hbody hcond
  | forLoop hi hinit hcond hupdate _ ih => exact .forLoop hi hinit hcond hupdate ih
  | forEach hi hvar hiterable _ ih => exact .forEach hi hvar hiterable ih
  | ret hi hvalue => exact .ret hi hvalue
  | raise hi hvalue => exact .raise hi hvalue
  | synchronized hi hlock _ ih => exact .synchronized hi hlock ih
  | empty hi => exact .empty hi

/-- The tokens of a statement that ends in a conditional without an `else`, with one behind it. -/
theorem toks_withElse (h : s.IsPlain) (ends : s.endsOpen = true) :
    (s.withElse no).toks = s.toks ++ .mark .elseWord :: no.toks := by
  induction h with
  | simple h => cases h <;> cases ends
  | @ifThen i cond yes _ _ _ ih =>
    by_cases inner : yes.endsOpen = true
    · simp [withElse, inner, toks, ih inner]
    · simp [withElse, inner, toks]
  | ifElse _ _ _ _ _ ih => simp [withElse, toks, ih ends]
  | whileLoop _ _ _ ih => simp [withElse, toks, ih ends]
  | forLoop _ _ _ _ _ ih => simp [withElse, toks, ih ends]
  | forEach _ _ _ _ ih => simp [withElse, toks, ih ends]
  | synchronized _ _ _ ih => simp [withElse, toks, ih ends]
  | _ => cases ends

/-- An `else` that goes to the conditional that it belongs to does not dangle. -/
theorem NoDanglingElse.withElse (h : s.IsPlain) (hs : s.NoDanglingElse)
    (hno : no.NoDanglingElse) : (s.withElse no).NoDanglingElse := by
  induction h with
  | simple h => cases h <;> exact hs
  | @ifThen i cond yes _ _ _ ih =>
    rw [noDanglingElse_ifThen] at hs
    by_cases inner : yes.endsOpen = true
    · rw [Stmt.withElse, if_pos inner, noDanglingElse_ifThen]
      exact ih hs
    · rw [Stmt.withElse, if_neg inner, noDanglingElse_ifElse]
      exact ⟨Bool.eq_false_iff.mpr inner, hs, hno⟩
  | ifElse _ _ _ _ _ ih =>
    rw [noDanglingElse_ifElse] at hs
    rw [Stmt.withElse, noDanglingElse_ifElse]
    exact ⟨hs.1, hs.2.1, ih hs.2.2⟩
  | whileLoop _ _ _ ih => simpa [Stmt.withElse] using ih (by simpa using hs)
  | forLoop _ _ _ _ _ ih =>
    rw [noDanglingElse_forLoop] at hs
    rw [Stmt.withElse, noDanglingElse_forLoop]
    exact ⟨hs.1, ih hs.2⟩
  | forEach _ _ _ _ ih => simpa [Stmt.withElse] using ih (by simpa using hs)
  | synchronized _ _ _ ih => simpa [Stmt.withElse] using ih (by simpa using hs)
  | _ => exact hs

end WithElse

/-! ### Regrouping -/

/-- Statements are read one by one. -/
theorem mem_regroupEach {ss : List Stmt} {t : Stmt} :
    t ∈ regroupEach ss ↔ ∃ s ∈ ss, s.regroup = t := by
  induction ss with
  | nil => simp [regroupEach]
  | cons s ss ih => simp [regroupEach, ih, eq_comm]

/-- What is read is plain. -/
theorem IsPlain.regroup {s : Stmt} (h : s.IsPlain) : s.regroup.IsPlain := by
  induction h with
  | simple h => cases h with
    | expr hi he => exact .simple (.expr hi he)
    | declare hi hd => exact .simple (.declare hi hd)
  | block hi _ ih =>
    refine .block hi fun t ht => ?_
    obtain ⟨s, hs, rfl⟩ := mem_regroupEach.mp ht
    exact ih s hs
  | ifThen hi hcond _ ih => exact .ifThen hi hcond ih
  | ifElse hi hcond _ _ yesIH noIH =>
    rw [Stmt.regroup]
    split
    · exact .ifThen hi hcond (yesIH.withElse noIH)
    · exact .ifElse hi hcond yesIH noIH
  | whileLoop hi hcond _ ih => exact .whileLoop hi hcond ih
  | doLoop hi _ hcond ih => exact .doLoop hi ih hcond
  | forLoop hi hinit hcond hupdate _ ih => exact .forLoop hi hinit hcond hupdate ih
  | forEach hi hvar hiterable _ ih => exact .forEach hi hvar hiterable ih
  | ret hi hvalue => exact .ret hi hvalue
  | raise hi hvalue => exact .raise hi hvalue
  | synchronized hi hlock _ ih => exact .synchronized hi hlock ih
  | empty hi => exact .empty hi

/-- In what is read, no `else` dangles. -/
theorem noDanglingElse_regroup {s : Stmt} (h : s.IsPlain) : s.regroup.NoDanglingElse := by
  induction h with
  | simple h => cases h with
    | expr hi he => exact (IsSimple.expr hi he).noDanglingElse
    | declare hi hd => exact (IsSimple.declare hi hd).noDanglingElse
  | block _ _ ih =>
    rw [regroup, noDanglingElse_block]
    intro t ht
    obtain ⟨s, hs, rfl⟩ := mem_regroupEach.mp ht
    exact ih s hs
  | ifThen _ _ _ ih => simpa [regroup] using ih
  | @ifElse i cond yes no _ _ hyes _ yesIH noIH =>
    by_cases inner : yes.regroup.endsOpen = true
    · rw [regroup, if_pos inner, noDanglingElse_ifThen]
      exact yesIH.withElse hyes.regroup noIH
    · rw [regroup, if_neg inner, noDanglingElse_ifElse]
      exact ⟨Bool.eq_false_iff.mpr inner, yesIH, noIH⟩
  | whileLoop _ _ _ ih => simpa [regroup] using ih
  | doLoop _ _ _ ih => simpa [regroup] using ih
  | forLoop _ hinit _ _ _ ih =>
    rw [regroup, noDanglingElse_forLoop]
    exact ⟨fun s hs => (hinit s hs).noDanglingElse, ih⟩
  | forEach _ _ _ _ ih => simpa [regroup] using ih
  | synchronized _ _ _ ih => simpa [regroup] using ih
  | ret | raise | empty =>
    rw [noDanglingElse_iff]
    simp [regroup, elseDangles, children]

/-- If reading keeps the tokens of each of some statements, it keeps those of all. -/
theorem toksEach_regroupEach {ss : List Stmt} (h : ∀ s ∈ ss, s.regroup.toks = s.toks) :
    toksEach (regroupEach ss) = toksEach ss := by
  induction ss with
  | nil => rfl
  | cons s ss ih =>
    rw [regroupEach, toksEach, toksEach, h s List.mem_cons_self,
      ih fun t ht => h t (List.mem_cons_of_mem s ht)]

/-- Regrouping a statement does not change its tokens. -/
theorem toks_regroup {s : Stmt} (h : s.IsPlain) : s.regroup.toks = s.toks := by
  induction h with
  | simple h => cases h <;> rfl
  | block _ _ ih => rw [regroup, toks, toks, toksEach_regroupEach ih]
  | ifThen _ _ _ ih => rw [regroup, toks, toks, ih]
  | @ifElse i cond yes no _ _ hyes _ yesIH noIH =>
    by_cases inner : yes.regroup.endsOpen = true
    · rw [regroup, if_pos inner, toks, toks_withElse hyes.regroup inner, toks, yesIH, noIH]
      simp
    · rw [regroup, if_neg inner, toks, toks, yesIH, noIH]
  | whileLoop _ _ _ ih => rw [regroup, toks, toks, ih]
  | doLoop _ _ _ ih => rw [regroup, toks, toks, ih]
  | forLoop _ _ _ _ _ ih => rw [regroup, toks, toks, ih]
  | forEach _ _ _ _ ih => rw [regroup, toks, toks, ih]
  | synchronized _ _ _ ih => rw [regroup, toks, toks, ih]
  | ret | raise | empty => rfl

/-- If each of some statements is read as it is, all are. -/
theorem regroupEach_eq {ss : List Stmt} (h : ∀ s ∈ ss, s.regroup = s) : regroupEach ss = ss := by
  induction ss with
  | nil => rfl
  | cons s ss ih =>
    rw [regroupEach, h s List.mem_cons_self, ih fun t ht => h t (List.mem_cons_of_mem s ht)]

/-- A statement without a dangling `else` is read as it is. -/
theorem regroup_eq {s : Stmt} (h : s.IsPlain) (hs : s.NoDanglingElse) : s.regroup = s := by
  induction h with
  | simple h => cases h <;> rfl
  | block _ _ ih =>
    rw [noDanglingElse_block] at hs
    rw [regroup, regroupEach_eq fun t ht => ih t ht (hs t ht)]
  | ifThen _ _ _ ih =>
    rw [noDanglingElse_ifThen] at hs
    rw [regroup, ih hs]
  | ifElse _ _ _ _ yesIH noIH =>
    obtain ⟨closed, hyes, hno⟩ := (noDanglingElse_ifElse ..).mp hs
    rw [regroup, yesIH hyes, noIH hno, closed, if_neg Bool.false_ne_true]
  | whileLoop _ _ _ ih =>
    rw [noDanglingElse_whileLoop] at hs
    rw [regroup, ih hs]
  | doLoop _ _ _ ih =>
    rw [noDanglingElse_doLoop] at hs
    rw [regroup, ih hs]
  | forLoop _ _ _ _ _ ih =>
    rw [noDanglingElse_forLoop] at hs
    rw [regroup, ih hs.2]
  | forEach _ _ _ _ ih =>
    rw [noDanglingElse_forEach] at hs
    rw [regroup, ih hs]
  | synchronized _ _ _ ih =>
    rw [noDanglingElse_synchronized] at hs
    rw [regroup, ih hs]
  | ret | raise | empty => rfl

/-! ### Reading a statement without a dangling `else` -/

/-- A statement without a dangling `else` is read as what it is, unless it ends in a conditional
that an `else` behind it would belong to. -/
theorem read_toks {s : Stmt} (h : s.IsPlain) (hs : s.NoDanglingElse) (rest : List Tok)
    (ends : s.endsOpen = true → rest.head? ≠ some (.mark .elseWord)) :
    Phrase.stmt.read (s.toks ++ rest) = some (s.bare, rest) := by
  induction h generalizing rest with
  | simple h =>
    have simple := Phrase.read_simple h rest
    cases h with
    | expr hi he => exact simple
    | declare hi hd =>
      rw [toks, List.append_assoc]
      exact simple
  | block _ plain ih =>
    rw [noDanglingElse_block] at hs
    rw [toks, List.append_assoc, List.cons_append, Phrase.read]
    exact Phrase.read_toksEach plain
      (fun t ht rest noElse => ih t ht (hs t ht) rest fun _ => noElse) [] rest
  | ifThen _ hcond _ ih =>
    -- An `else` behind the branch would belong to the branch or to the conditional itself.
    rw [noDanglingElse_ifThen] at hs
    rw [toks, List.append_assoc, bare]
    exact Phrase.read_ifThen hcond (ih hs rest fun _ => ends rfl) (ends rfl)
  | @ifElse i cond yes no _ hcond _ _ yesIH noIH =>
    -- The first branch leaves its `else` alone, since nothing dangles.
    obtain ⟨closed, hyes, hno⟩ := (noDanglingElse_ifElse ..).mp hs
    have yesRead := yesIH hyes (.mark .elseWord :: (no.toks ++ rest))
      fun ends => absurd (closed.symm.trans ends) (by decide)
    rw [toks, bare, List.append_assoc, List.append_assoc, List.append_assoc]
    exact Phrase.read_ifElse hcond yesRead (noIH hno rest ends)
  | whileLoop _ hcond _ ih =>
    rw [noDanglingElse_whileLoop] at hs
    rw [toks, List.append_assoc, bare]
    exact Phrase.read_whileLoop hcond (ih hs rest ends)
  | @doLoop i body cond _ _ hcond ih =>
    rw [noDanglingElse_doLoop] at hs
    have bodyRead := ih hs (headToks .whileWord cond ++ .mark .semicolon :: rest)
      fun _ => by simp [headToks]
    rw [toks, bare, List.append_assoc, List.append_assoc]
    exact Phrase.read_doLoop hcond bodyRead
  | forLoop _ hinit hcond hupdate _ ih =>
    rw [noDanglingElse_forLoop] at hs
    rw [toks, bare, bareEach_eq_map]
    simp only [List.cons_append, List.nil_append, List.append_assoc]
    exact Phrase.read_for (readFor_loop hinit hcond hupdate _) (ih hs.2 rest ends)
  | forEach _ hvar hiterable _ ih =>
    rw [noDanglingElse_forEach] at hs
    rw [toks, bare]
    simp only [List.cons_append, List.nil_append, List.append_assoc]
    exact Phrase.read_for (readFor_each hvar hiterable _) (ih hs rest ends)
  | synchronized _ hlock _ ih =>
    rw [noDanglingElse_synchronized] at hs
    rw [toks, List.append_assoc, bare]
    exact Phrase.read_synchronized hlock (ih hs rest ends)
  | ret _ hvalue =>
    rw [toks, List.append_assoc, bare]
    exact Phrase.read_ret hvalue
  | raise _ hvalue =>
    rw [toks, bare]
    exact Phrase.read_raise hvalue
  | empty =>
    rw [toks, bare]
    simp [Phrase.read]

/-! ### Printed statements -/

section Printed

variable {ss ss' : List Stmt}

/-- What is read of plain statements is plain. -/
theorem forall_isPlain_regroupEach (h : ∀ s ∈ ss, s.IsPlain) :
    ∀ t ∈ regroupEach ss, t.IsPlain := by
  intro t ht
  obtain ⟨s, hs, rfl⟩ := mem_regroupEach.mp ht
  exact (h s hs).regroup

/-- Regrouped statements one after the other have the tokens of the statements. -/
theorem toksEach_bareEach_regroupEach (h : ∀ s ∈ ss, s.IsPlain) :
    toksEach (bareEach (regroupEach ss)) = toksEach ss := by
  rw [toksEach_bareEach fun t ht => toks_bare (forall_isPlain_regroupEach h t ht),
    toksEach_regroupEach fun s hs => toks_regroup (h s hs)]

/-- Plain statements in front of a closing brace are read as the block of the regrouped ones. -/
theorem read_toksEach_of_isPlain (h : ∀ s ∈ ss, s.IsPlain) :
    (Phrase.block []).read (toksEach ss ++ [.mark .closeBrace])
      = some (.block .synthetic (bareEach (regroupEach ss)), []) := by
  have plain := forall_isPlain_regroupEach h
  have settled : ∀ t ∈ regroupEach ss, t.NoDanglingElse := by
    intro t ht
    obtain ⟨s, hs, rfl⟩ := mem_regroupEach.mp ht
    exact noDanglingElse_regroup (h s hs)
  have whole := Phrase.read_toksEach plain
    (fun t ht rest noElse => read_toks (plain t ht) (settled t ht) rest fun _ => noElse) [] []
  rwa [toksEach_regroupEach fun s hs => toks_regroup (h s hs)] at whole

/-- Plain statements are printed with the same tokens exactly if they are read alike.  Where no
`else` dangles, statements that are printed with the same tokens are the same up to what their
nodes carry. -/
theorem javaTokens_renderAll_eq_iff (h : ∀ s ∈ ss, s.IsPlain) (h' : ∀ s ∈ ss', s.IsPlain)
    (source source' : String) {indent indent' : String} (white : IsWhite indent)
    (white' : IsWhite indent') :
    (javaTokens (renderAll source indent ss) = javaTokens (renderAll source' indent' ss')
      ↔ bareEach (regroupEach ss) = bareEach (regroupEach ss')) ∧
    ((∀ s ∈ ss, s.NoDanglingElse) → (∀ s ∈ ss', s.NoDanglingElse) →
      javaTokens (renderAll source indent ss) = javaTokens (renderAll source' indent' ss') →
        bareEach ss = bareEach ss') := by
  have tokens := map_ofText_javaTokens_renderAll h source white
  have tokens' := map_ofText_javaTokens_renderAll h' source' white'
  have alike : javaTokens (renderAll source indent ss) = javaTokens (renderAll source' indent' ss')
      ↔ bareEach (regroupEach ss) = bareEach (regroupEach ss') := by
    rw [← (List.map_injective_iff.mpr Tok.ofText_injective).eq_iff, tokens, tokens']
    constructor
    · intro same
      have read := read_toksEach_of_isPlain h
      rw [same, read_toksEach_of_isPlain h'] at read
      exact (block.inj (Prod.mk.inj (Option.some.inj read)).1).2.symm
    · intro same
      rw [← toksEach_bareEach_regroupEach h, same, toksEach_bareEach_regroupEach h']
  refine ⟨alike, ?_⟩
  intro settled settled' same
  have regrouped := alike.mp same
  rwa [regroupEach_eq fun s hs => regroup_eq (h s hs) (settled s hs),
    regroupEach_eq fun s hs => regroup_eq (h' s hs) (settled' s hs)] at regrouped

end Printed

/-- An expression statement. -/
def ofName (name : String) : Stmt := .expr .synthetic (ident name)

/-- A conditional in a conditional, each with or without a second branch. -/
def nestedIf (inner outer : Option Stmt) : Stmt :=
  .ifElse .synthetic (ident "a") (.ifElse .synthetic (ident "b") (ofName "s") inner) outer

/-- A statement of an identifier is plain. -/
theorem isPlain_ofName {name : String} (h : IsIdentifier name) : (ofName name).IsPlain :=
  .simple (.expr ⟨rfl, rfl⟩ (.ident rfl h none))

/-- Two conditionals whose outer one has the `else` are plain. -/
theorem isPlain_nestedIf_outer : (nestedIf none (some (ofName "t"))).IsPlain :=
  .ifElse ⟨rfl, rfl⟩ (.ident rfl (by decide) none)
    (.ifThen ⟨rfl, rfl⟩ (.ident rfl (by decide) none) (isPlain_ofName (by decide)))
    (isPlain_ofName (by decide))

/-- Two conditionals whose inner one has the `else` are plain. -/
theorem isPlain_nestedIf_inner : (nestedIf (some (ofName "t")) none).IsPlain :=
  .ifThen ⟨rfl, rfl⟩ (.ident rfl (by decide) none)
    (.ifElse ⟨rfl, rfl⟩ (.ident rfl (by decide) none) (isPlain_ofName (by decide))
      (isPlain_ofName (by decide)))

/-- Whichever of two nested conditionals an `else` belongs to, it is printed with the same
tokens, however the lines are indented. -/
theorem javaTokens_renderAll_nestedIf :
    (∀ s ∈ [nestedIf none (some (ofName "t"))], s.IsPlain) ∧
      (∀ s ∈ [nestedIf (some (ofName "t")) none], s.IsPlain) ∧ IsWhite "" ∧ IsWhite "\t" ∧
      javaTokens (renderAll "" "" [nestedIf none (some (ofName "t"))])
        = javaTokens (renderAll "" "\t" [nestedIf (some (ofName "t")) none]) := by
  have outer := List.forall_mem_singleton.mpr isPlain_nestedIf_outer
  have inner := List.forall_mem_singleton.mpr isPlain_nestedIf_inner
  exact ⟨outer, inner, by decide, by decide,
    (javaTokens_renderAll_eq_iff outer inner "" "" (by decide) (by decide)).1.mpr rfl⟩

/-- Plain statements with the same tokens need not be the same. -/
theorem not_bare_eq_of_javaTokens_eq :
    ¬ ∀ s t : Stmt, s.IsPlain → t.IsPlain →
      javaTokens (renderAll "" "" [s]) = javaTokens (renderAll "" "" [t]) → s.bare = t.bare := by
  intro h
  have same := h _ _ isPlain_nestedIf_outer isPlain_nestedIf_inner (by decide +kernel)
  simp [nestedIf, ofName, bare] at same

end Stmt

end JavaRefactor
