import JavaRefactor.Proofs.Expansion.Imports
import JavaRefactor.Proofs.Rule.Comments

/-!
# The imports of all fixes together

The code of one match is built with pending imports of its own: no two of them have one simple
name, and none takes a name that the unit uses (`PendingImports.Apart`).  The fixes of all
matches of all rules are then put together, and their imports too.  What the imports of each
fix have in common with the unit stays true of all of them together, but that no two have one
simple name is a property of each pair of matches: it holds of all imports exactly if it holds of
the imports of every two matches (`RefactoringRule.scanAll_imports`).
-/

namespace JavaRefactor

/-! ### One match -/

/-- The names of the static members that the code written by a rule refers to. -/
def RefactoringRule.staticMembers (r : RefactoringRule) : List String :=
  match r.body with
  | .expression _ after => after.elim [] fun t => t.pattern.staticMembers
  | .block _ after => after.elim [] fun t => StmtPattern.staticMembersOfEach t.stmts

/-- What every reference keeps is true of the imports of a fix. -/
theorem RefactoringRule.imports_of_mem_scan {r : RefactoringRule} {c : MatchContext}
    {I : PendingImports → Prop} {named : String → Prop} (start : I .empty)
    (keeps : ∀ b, (c.expansion b r.importPolicy).Keeps I named)
    (simple : ∀ member ∈ r.staticMembers, named member) {m : RuleMatch} (hm : m ∈ r.scan c)
    {f : Fix} (hf : m.fix = some f) : I f.imports := by
  unfold staticMembers at simple
  cases hbody : r.body with
  | expression before after =>
    rw [hbody] at simple
    obtain ⟨e, -, level, b, rfl⟩ := mem_scan_expression hbody hm
    obtain ⟨t, rfl, replaced⟩ := Option.bind_eq_some_iff.mp hf
    have replaced := Bindings.toOption_eq_some replaced
    have kept := t.pattern.expand_keeps (keeps b) simple .empty start
    unfold ExpressionTemplate.replace at replaced
    split at replaced
    · rename_i new imports run
      obtain rfl := Except.ok.inj replaced
      rw [run] at kept
      exact kept
    · exact absurd replaced (by simp)
  | block before after =>
    rw [hbody] at simple
    obtain ⟨i, ss, -, front, run, back, -, t', -, b, -, first, rfl⟩ := mem_scan_block hbody hm
    obtain ⟨t, rfl, replaced⟩ := Option.bind_eq_some_iff.mp hf
    have replaced := Bindings.toOption_eq_some replaced
    have kept := BlockTemplate.replaceEach_keeps (keeps b) t.stmts run simple .empty start
    unfold BlockTemplate.replace at replaced
    split at replaced
    · rename_i edits imports run
      obtain rfl := Except.ok.inj replaced
      rw [run] at kept
      exact kept
    · exact absurd replaced (by simp)

/-! ### All matches -/

/-- Two names of two sets that have the same simple name are the same name. -/
def NameSet.Agrees (s t : NameSet) : Prop :=
  ∀ x ∈ s.names, ∀ y ∈ t.names, Dotted.simpleName x = Dotted.simpleName y → x = y

/-- Whether two sets of names agree has no direction. -/
theorem NameSet.Agrees.symm {s t : NameSet} (h : s.Agrees t) : t.Agrees s :=
  fun x hx y hy same => (h y hy x hx same.symm).symm

namespace RuleMatch

variable (names : Fix → NameSet) {found : List RuleMatch}

/-- The names that all fixes have together are those of each of them. -/
theorem mem_mergedFix (start : names .empty = .empty)
    (step : ∀ f g, names (f.merge g) = (names f).union (names g)) {x : String} :
    x ∈ (names (mergedFix found)).names ↔ ∃ m ∈ found, ∃ f ∈ m.fix, x ∈ (names f).names := by
  have fold (fixes : List Fix) (first : Fix) : x ∈ (names (fixes.foldl Fix.merge first)).names ↔
      x ∈ (names first).names ∨ ∃ f ∈ fixes, x ∈ (names f).names := by
    induction fixes generalizing first with
    | nil => simp
    | cons f fixes ih =>
      rw [List.foldl_cons, ih, step, NameSet.mem_union, List.exists_mem_cons_iff]
      tauto
  have none : x ∉ (names .empty).names := by
    rw [start]
    exact List.not_mem_nil
  rw [mergedFix, fold, or_iff_right none]
  simp only [List.mem_filterMap]
  constructor
  · rintro ⟨f, ⟨m, hm, hf⟩, hx⟩
    exact ⟨m, hm, f, hf, hx⟩
  · rintro ⟨m, hm, f, hf, hx⟩
    exact ⟨f, ⟨m, hm, hf⟩, hx⟩

/-- The names of all fixes agree exactly if those of every two fixes do, where each agrees with
itself. -/
theorem agrees_mergedFix_iff (start : names .empty = .empty)
    (step : ∀ f g, names (f.merge g) = (names f).union (names g))
    (own : ∀ m ∈ found, ∀ f ∈ m.fix, (names f).Agrees (names f)) :
    (names (mergedFix found)).Agrees (names (mergedFix found)) ↔
      found.Pairwise fun m n => ∀ f ∈ m.fix, ∀ g ∈ n.fix, (names f).Agrees (names g) := by
  constructor
  · intro all
    refine List.pairwise_of_forall_mem_list ?_
    intro m hm n hn f hf g hg x hx y hy
    exact all x ((mem_mergedFix names start step).mpr ⟨m, hm, f, hf, hx⟩)
      y ((mem_mergedFix names start step).mpr ⟨n, hn, g, hg, hy⟩)
  · intro pairwise x hx y hy
    obtain ⟨m, hm, f, hf, hx⟩ := (mem_mergedFix names start step).mp hx
    obtain ⟨n, hn, g, hg, hy⟩ := (mem_mergedFix names start step).mp hy
    have itself (m : RuleMatch) (hm : m ∈ found) :
        ∀ f ∈ m.fix, ∀ g ∈ m.fix, (names f).Agrees (names g) := by
      intro f hf g hg
      obtain rfl : f = g := Option.some.inj (hf.symm.trans hg)
      exact own m hm f hf
    have swapped := pairwise.imp fun h g hg f hf => (h f hf g hg).symm
    exact pairwise.forall_of_forall_of_flip itself swapped hm hn f hf g hg x hx y hy

end RuleMatch

namespace RefactoringRule

/-- What holds of the imports of each fix that a rule finds holds of those of all rules. -/
theorem forall_of_mem_scanAll {rules : List RefactoringRule} {c : MatchContext}
    {P : Fix → Prop} (each : ∀ r ∈ rules, ∀ m ∈ r.scan c, ∀ f ∈ m.fix, P f) :
    ∀ m ∈ scanAll rules c, ∀ f ∈ m.fix, P f := by
  intro m hm f hf
  obtain ⟨r, hr, hm⟩ := List.mem_flatMap.mp hm
  exact each r hr m hm f hf

/-- The classes that the fixes of some rules import together have simple names that the unit
neither imports nor declares.  No two of them have the same simple name exactly if no two
matches import different classes of one simple name, and where the rules name static members by
simple names, it is the same with static members. -/
theorem scanAll_imports (rules : List RefactoringRule) (c : MatchContext) :
    (∀ path ∈ (RuleMatch.mergedFix (scanAll rules c)).imports.classes.names,
      c.unit.classImport? (Dotted.simpleName path) = none ∧
        c.unit.declaresType (Dotted.simpleName path) = false) ∧
    ((RuleMatch.mergedFix (scanAll rules c)).imports.classes.Agrees
        (RuleMatch.mergedFix (scanAll rules c)).imports.classes ↔
      (scanAll rules c).Pairwise fun m n => ∀ f ∈ m.fix, ∀ g ∈ n.fix,
        f.imports.classes.Agrees g.imports.classes) ∧
    ((∀ r ∈ rules, ∀ member ∈ r.staticMembers, '.' ∉ member.toList) →
      ((RuleMatch.mergedFix (scanAll rules c)).imports.statics.Agrees
          (RuleMatch.mergedFix (scanAll rules c)).imports.statics ↔
        (scanAll rules c).Pairwise fun m n => ∀ f ∈ m.fix, ∀ g ∈ n.fix,
          f.imports.statics.Agrees g.imports.statics)) := by
  have classes : ∀ m ∈ scanAll rules c, ∀ f ∈ m.fix, f.imports.ClassesApart c.unit :=
    forall_of_mem_scanAll fun r _ m hm f hf =>
      imports_of_mem_scan (PendingImports.apart_empty c.unit).toClassesApart
        (fun b => (c.expansion b r.importPolicy).keeps_classesApart)
        (fun _ _ => True.intro) hm hf
  refine ⟨?_, ?_, ?_⟩
  · intro path hpath
    obtain ⟨m, hm, f, hf, hpath⟩ :=
      (RuleMatch.mem_mergedFix (fun f => f.imports.classes) rfl fun _ _ => rfl).mp hpath
    obtain ⟨notImported, notDeclared, -⟩ := (classes m hm f hf).classes path hpath
    exact ⟨notImported, notDeclared⟩
  · exact RuleMatch.agrees_mergedFix_iff (fun f => f.imports.classes) rfl (fun _ _ => rfl)
      fun m hm f hf => (classes m hm f hf).classNames
  · intro simple
    have statics : ∀ m ∈ scanAll rules c, ∀ f ∈ m.fix, f.imports.StaticsApart c.unit :=
      forall_of_mem_scanAll fun r hr m hm f hf =>
        imports_of_mem_scan (PendingImports.apart_empty c.unit).toStaticsApart
          (fun b => (c.expansion b r.importPolicy).keeps_staticsApart) (simple r hr) hm hf
    exact RuleMatch.agrees_mergedFix_iff (fun f => f.imports.statics) rfl (fun _ _ => rfl)
      fun m hm f hf => (statics m hm f hf).staticNames

/-- A rule that writes `of(new Date())` for `1`, where the class and the method are those of a
package. -/
private def dateOf (package : String) : RefactoringRule where
  name := "Rules.DateOf"
  body := .expression [⟨⟨{}, .empty, []⟩, .literal (.int 1), .primitive .int⟩]
    (some ⟨⟨{ importPolicy := some .staticMembers }, .empty, []⟩,
      .call (.staticRef (package ++ ".Dates") "of" (.method [] (.primitive .int)))
        [.newObject (.classRef (package ++ ".Date")) []], .primitive .int⟩)
  options := {}

/-- A class with a field `private int x = 1;`. -/
private def oneClass : TypeDecl where
  name := "A"
  fields :=
    let int := NodeInfo.ofType (.primitive .int)
    [⟨"x", .primitiveType int .int, some (.literal int (.int 1)), none, false⟩]
  methods := []
  span := .synthetic

private def oneContext : MatchContext :=
  ⟨CompilationUnit.ofDeclarations none [] [oneClass] .empty, .rootOnly⟩

/-- The fixes of two such rules import two classes `Date` and two methods `of`. -/
theorem scanAll_imports_dateOf :
    (∀ r ∈ [dateOf "a", dateOf "b"], ∀ member ∈ r.staticMembers, '.' ∉ member.toList) ∧
      (RuleMatch.mergedFix (scanAll [dateOf "a", dateOf "b"] oneContext)).imports.classes.names
        = ["a.Date", "b.Date"] ∧
      (RuleMatch.mergedFix (scanAll [dateOf "a", dateOf "b"] oneContext)).imports.statics.names
        = ["a.Dates.of", "b.Dates.of"] ∧
      ¬ (scanAll [dateOf "a", dateOf "b"] oneContext).Pairwise (fun m n =>
        ∀ f ∈ m.fix, ∀ g ∈ n.fix, f.imports.classes.Agrees g.imports.classes) ∧
      ¬ (scanAll [dateOf "a", dateOf "b"] oneContext).Pairwise (fun m n =>
        ∀ f ∈ m.fix, ∀ g ∈ n.fix, f.imports.statics.Agrees g.imports.statics) := by
  have simple : ∀ r ∈ [dateOf "a", dateOf "b"], ∀ member ∈ r.staticMembers,
      '.' ∉ member.toList := by
    simp [dateOf, staticMembers, ExprPattern.staticMembers, ExprPattern.staticMembersOfEach]
  have classes : (RuleMatch.mergedFix
      (scanAll [dateOf "a", dateOf "b"] oneContext)).imports.classes.names
        = ["a.Date", "b.Date"] := by
    decide +kernel
  have statics : (RuleMatch.mergedFix
      (scanAll [dateOf "a", dateOf "b"] oneContext)).imports.statics.names
        = ["a.Dates.of", "b.Dates.of"] := by
    decide +kernel
  obtain ⟨-, classesAgree, staticsAgree⟩ := scanAll_imports [dateOf "a", dateOf "b"] oneContext
  refine ⟨simple, classes, statics, ?_, ?_⟩
  · intro pairwise
    have same := classesAgree.mpr pairwise "a.Date" (by simp [classes]) "b.Date" (by simp [classes])
      (by decide)
    exact absurd same (by decide)
  · intro pairwise
    have same := (staticsAgree simple).mpr pairwise "a.Dates.of" (by simp [statics]) "b.Dates.of"
      (by simp [statics]) (by decide)
    exact absurd same (by decide)

end RefactoringRule

end JavaRefactor
