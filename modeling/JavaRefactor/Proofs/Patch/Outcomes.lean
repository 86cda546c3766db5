import JavaRefactor.Patch.Run

/-!
# Outcomes of runs

What a run does that reads one set of files and writes another.  No patch of such a run reads what
another one has written, so each succeeds or fails for itself; only patches for one file compete,
and then the last one that succeeds decides (`Transfer.run_access`).
-/

namespace JavaRefactor

namespace Patch

/-- The text that a patch gives for its file, or why it gives none. -/
def outcome (source : MemoryFiles) (p : Patch) : Except PatchError String :=
  match source.get? p.path with
  | some content => p.apply content
  | none => .error (.notFound p.path)

/-- The text that a patch gives for a file, if that is its own file. -/
def outputFor? (source : MemoryFiles) (path : String) (p : Patch) : Option String :=
  if p.path = path then (p.outcome source).toOption else none

/-- The text that the last successful patch for a file gives. -/
def lastOutput? (source : MemoryFiles) (path : String) (patches : List Patch) : Option String :=
  patches.reverse.findSome? (outputFor? source path)

/-- The files whose patches fail, in the order of the patches. -/
def failedPaths (source : MemoryFiles) (patches : List Patch) : List String :=
  (patches.filter fun p => !(p.outcome source).isOk).map Patch.path

variable {source : MemoryFiles} {path : String} {p : Patch} {patches patches' : List Patch}

/-- The first of some patches decides only if no other one does. -/
theorem lastOutput?_cons (source : MemoryFiles) (path : String) (p : Patch)
    (patches : List Patch) : lastOutput? source path (p :: patches)
      = (lastOutput? source path patches).or (p.outputFor? source path) := by
  rw [lastOutput?, lastOutput?, List.reverse_cons, List.findSome?_append, List.findSome?_singleton]

/-- Patches for different files do not compete. -/
theorem or_outputFor?_comm {p q : Patch} (ne : p.path ≠ q.path) (other : Option String) :
    (other.or (q.outputFor? source path)).or (p.outputFor? source path)
      = (other.or (p.outputFor? source path)).or (q.outputFor? source path) := by
  rw [Option.or_assoc, Option.or_assoc]
  by_cases hp : p.path = path
  · have hq : q.path ≠ path := fun hq => ne (hp.trans hq.symm)
    simp [outputFor?, hq]
  · simp [outputFor?, hp]

/-- Among patches for different files the order does not matter. -/
theorem lastOutput?_perm (perm : patches.Perm patches') :
    (patches.map Patch.path).Nodup →
      lastOutput? source path patches = lastOutput? source path patches' := by
  induction perm with
  | nil => exact fun _ => rfl
  | cons p _ ih =>
    intro distinct
    rw [List.map_cons, List.nodup_cons] at distinct
    rw [lastOutput?_cons, lastOutput?_cons, ih distinct.2]
  | swap p q ps =>
    intro distinct
    have ne : q.path ≠ p.path := by
      intro same
      simp [same] at distinct
    simp only [lastOutput?_cons]
    exact or_outputFor?_comm ne _
  | trans first _ ih ih' =>
    intro distinct
    rw [ih distinct, ih' ((first.map Patch.path).nodup distinct)]

/-- A patch that succeeds is not among those that fail. -/
theorem failedPaths_cons_ok {text : String} (success : p.outcome source = .ok text) :
    failedPaths source (p :: patches) = failedPaths source patches := by
  rw [failedPaths, List.filter_cons, success]
  rfl

/-- A patch that fails is the first of those that fail. -/
theorem failedPaths_cons_error {e : PatchError} (failure : p.outcome source = .error e) :
    failedPaths source (p :: patches) = p.path :: failedPaths source patches := by
  rw [failedPaths, List.filter_cons, failure]
  rfl

/-- In another order, the same patches fail. -/
theorem failedPaths_perm (perm : patches.Perm patches') :
    (failedPaths source patches).Perm (failedPaths source patches') :=
  (perm.filter _).map _

end Patch

namespace Transfer

open Patch

variable {source destination written : MemoryFiles} {p : Patch} {patches : List Patch}
  {e : PatchError} {text : String}

/-- A patch of a run between two sets writes its outcome to the destination, if it has one. -/
theorem applyPatch_access (source destination : MemoryFiles) (p : Patch) :
    access.applyPatch p ⟨source, destination⟩
      = (p.outcome source).map fun text => ⟨source, destination.put p.path text⟩ := by
  cases found : source.get? p.path with
  | none =>
    have read : access.read ⟨source, destination⟩ p.path = .error (.notFound p.path) := by
      simp only [access, found]
    rw [FileAccess.applyPatch, outcome, read, found]
    rfl
  | some content =>
    have read : access.read ⟨source, destination⟩ p.path = .ok content := by
      simp only [access, found]
    rw [FileAccess.applyPatch, outcome, read, found]
    show (p.apply content >>= access.write ⟨source, destination⟩ p.path) = (p.apply content).map _
    cases p.apply content <;> rfl

/-! ### What has been written -/

/-- The outputs of some patches have been written, in the order of the patches, and nothing
else. -/
structure Received (source : MemoryFiles) (patches : List Patch)
    (destination written : MemoryFiles) : Prop where
  flushes_eq : written.flushes = destination.flushes
  get?_eq : ∀ path, written.get? path
    = (lastOutput? source path patches).or (destination.get? path)

/-- No patches write nothing. -/
theorem Received.nil (source destination : MemoryFiles) :
    Received source [] destination destination :=
  ⟨rfl, fun _ => rfl⟩

/-- A patch that succeeds decides for its file, unless one behind it does. -/
theorem Received.cons_ok (success : p.outcome source = .ok text)
    (h : Received source patches (destination.put p.path text) written) :
    Received source (p :: patches) destination written where
  flushes_eq := h.flushes_eq
  get?_eq path := by
    rw [h.get?_eq, lastOutput?_cons, Option.or_assoc, outputFor?, success]
    split
    · rename_i own
      rw [← own, MemoryFiles.get?_put_self]
      rfl
    · rename_i ne
      rw [MemoryFiles.get?_put_of_ne text ne, Option.none_or]

/-- A patch that fails writes nothing. -/
theorem Received.cons_error (failure : p.outcome source = .error e)
    (h : Received source patches destination written) :
    Received source (p :: patches) destination written where
  flushes_eq := h.flushes_eq
  get?_eq path := by
    have none : p.outputFor? source path = none := by
      rw [outputFor?, failure]
      split <;> rfl
    rw [h.get?_eq, lastOutput?_cons, none, Option.or_none]

/-! ### Patches one after the other -/

/-- A run that keeps going counts the patches that succeed, and collects the files of the
others. -/
theorem applyEach_access (source destination : MemoryFiles) (patches : List Patch) :
    ∃ completed written, access.applyEach true patches ⟨source, destination⟩
        = (.ok (completed, failedPaths source patches), ⟨source, written⟩) ∧
      completed + (failedPaths source patches).length = patches.length ∧
        Received source patches destination written := by
  induction patches generalizing destination with
  | nil => exact ⟨0, destination, rfl, rfl, .nil source destination⟩
  | cons p ps ih =>
    cases outcome : p.outcome source with
    | ok text =>
      obtain ⟨completed, written, ran, total, received⟩ := ih (destination.put p.path text)
      refine ⟨completed + 1, written, ?_, ?_, received.cons_ok outcome⟩
      · rw [FileAccess.applyEach, applyPatch_access, outcome, failedPaths_cons_ok outcome]
        simp only [Except.map, ran]
      · rw [failedPaths_cons_ok outcome, List.length_cons, ← total]
        exact Nat.add_right_comm ..
    | error e =>
      obtain ⟨completed, written, ran, total, received⟩ := ih destination
      refine ⟨completed, written, ?_, ?_, received.cons_error outcome⟩
      · rw [FileAccess.applyEach, applyPatch_access, outcome, failedPaths_cons_error outcome]
        simp only [Except.map, ran]
        rfl
      · rw [failedPaths_cons_error outcome, List.length_cons, List.length_cons, ← total]
        rfl

/-- If no patch fails, it does not matter whether a run would keep going. -/
theorem applyEach_of_success (destination : MemoryFiles)
    (success : ∀ p ∈ patches, ∃ text, p.outcome source = .ok text) :
    access.applyEach false patches ⟨source, destination⟩
      = access.applyEach true patches ⟨source, destination⟩ := by
  induction patches generalizing destination with
  | nil => rfl
  | cons p ps ih =>
    obtain ⟨text, outcome⟩ := success p List.mem_cons_self
    have rest := ih (destination.put p.path text) fun q hq => success q (List.mem_cons_of_mem p hq)
    rw [FileAccess.applyEach, FileAccess.applyEach, applyPatch_access, outcome]
    simp only [Except.map, rest]

/-- A run that does not keep going stops at the first patch that fails, with its error. -/
theorem applyEach_of_failure (destination : MemoryFiles) {front : List Patch}
    (success : ∀ q ∈ front, ∃ text, q.outcome source = .ok text)
    (failure : p.outcome source = .error e) (back : List Patch) :
    ∃ written, access.applyEach false (front ++ p :: back) ⟨source, destination⟩
        = (.error e, ⟨source, written⟩) ∧ Received source front destination written := by
  induction front generalizing destination with
  | nil =>
    refine ⟨destination, ?_, .nil source destination⟩
    rw [List.nil_append, FileAccess.applyEach, applyPatch_access, failure]
    rfl
  | cons q qs ih =>
    obtain ⟨text, outcome⟩ := success q List.mem_cons_self
    obtain ⟨written, ran, received⟩ := ih (destination.put q.path text) fun q' hq' =>
      success q' (List.mem_cons_of_mem q hq')
    refine ⟨written, ?_, received.cons_ok outcome⟩
    rw [List.cons_append, FileAccess.applyEach, applyPatch_access, outcome]
    simp only [Except.map, ran]

/-! ### Runs -/

/-- A report counts all patches, and lists the files of those that failed. -/
structure Reports (source : MemoryFiles) (patches : List Patch) (report : RunReport) : Prop where
  total : report.completed + report.notApplied.length = patches.length
  sorted : report.notApplied.Pairwise (· ≤ ·)
  failed : report.notApplied.Perm (failedPaths source patches)

/-- The same patches in another order have the same report. -/
theorem Reports.eq_of_perm {patches' : List Patch} {report report' : RunReport}
    (h : Reports source patches report) (h' : Reports source patches' report')
    (perm : patches.Perm patches') : report = report' := by
  have paths : report.notApplied.Perm report'.notApplied :=
    h.failed.trans ((failedPaths_perm perm).trans h'.failed.symm)
  have same : report.notApplied = report'.notApplied :=
    paths.eq_of_pairwise (fun _ _ _ _ => String.le_antisymm) h.sorted h'.sorted
  have completed : report.completed = report'.completed := by
    have total := h.total
    rw [same, perm.length_eq, ← h'.total] at total
    exact Nat.add_right_cancel total
  cases report
  cases report'
  exact congr (congrArg RunReport.mk completed) same

/-- A run that keeps going reports all patches and writes what the successful ones give. -/
theorem run_keepGoing (source destination : MemoryFiles) (patches : List Patch) :
    ∃ report written, access.run true patches ⟨source, destination⟩
        = (.ok report, access.flush ⟨source, written⟩) ∧
      Reports source patches report ∧ Received source patches destination written := by
  obtain ⟨completed, written, ran, total, received⟩ := applyEach_access source destination patches
  have trans (a b c : String) : decide (a ≤ b) = true → decide (b ≤ c) = true →
      decide (a ≤ c) = true := by
    simpa using String.le_trans
  have either (a b : String) : (decide (a ≤ b) || decide (b ≤ a)) = true := by
    simpa using String.le_total a b
  have sorted := List.pairwise_mergeSort trans either (failedPaths source patches)
  have perm := List.mergeSort_perm (failedPaths source patches) fun a b => decide (a ≤ b)
  refine ⟨⟨completed, (failedPaths source patches).mergeSort fun a b => decide (a ≤ b)⟩, written,
    ?_, ⟨?_, sorted.imp of_decide_eq_true, perm⟩, received⟩
  · rw [FileAccess.run, ran]
  · rw [List.length_mergeSort, total]

/-- Runs that read one set of files and write another.

A run that keeps going reports every patch, as completed or with its file among those that were
not changed, which are listed in order.  Each file has the text of the last successful patch for
it, no other file has changed, and there is one flush.  If the patches are for different files,
their order does not matter.

Any other run stops at the first patch that fails, with its error.  The outputs of the patches in
front of it have been written, and nothing else, and there is no flush.  If none fails, it does
what a run does that keeps going. -/
theorem run_access (patches : List Patch) (source destination : MemoryFiles) :
    (∃ report written, access.run true patches ⟨source, destination⟩
        = (.ok report, ⟨source, written⟩) ∧
      report.completed + report.notApplied.length = patches.length ∧
      report.notApplied.Pairwise (· ≤ ·) ∧
      report.notApplied.Perm (failedPaths source patches) ∧
      written.flushes = destination.flushes + 1 ∧
      (∀ path, written.get? path
        = (lastOutput? source path patches).or (destination.get? path)) ∧
      ((patches.map Patch.path).Nodup → ∀ patches', patches'.Perm patches →
        ∃ written', access.run true patches' ⟨source, destination⟩
            = (.ok report, ⟨source, written'⟩) ∧
          written'.flushes = written.flushes ∧ ∀ path, written'.get? path = written.get? path)) ∧
    (∀ front p back e, patches = front ++ p :: back →
      (∀ q ∈ front, ∃ text, q.outcome source = .ok text) → p.outcome source = .error e →
        ∃ written, access.run false patches ⟨source, destination⟩
            = (.error e, ⟨source, written⟩) ∧
          written.flushes = destination.flushes ∧
          ∀ path, written.get? path
            = (lastOutput? source path front).or (destination.get? path)) ∧
    ((∀ p ∈ patches, ∃ text, p.outcome source = .ok text) →
      access.run false patches ⟨source, destination⟩
        = access.run true patches ⟨source, destination⟩) := by
  refine ⟨?_, ?_, fun success => ?_⟩
  · obtain ⟨report, written, ran, reports, flushes, get?⟩ :=
      run_keepGoing source destination patches
    refine ⟨report, _, ran, reports.total, reports.sorted, reports.failed,
      congrArg (· + 1) flushes, get?, fun distinct patches' perm => ?_⟩
    obtain ⟨report', written', ran', reports', flushes', get?'⟩ :=
      run_keepGoing source destination patches'
    -- a report is settled by what fails, whatever the order
    rw [reports'.eq_of_perm reports perm] at ran'
    refine ⟨_, ran', congrArg (· + 1) (flushes'.trans flushes.symm), fun path => ?_⟩
    calc written'.get? path
        = (lastOutput? source path patches').or (destination.get? path) := get?' path
      _ = (lastOutput? source path patches).or (destination.get? path) := by
        rw [lastOutput?_perm perm.symm distinct]
      _ = written.get? path := (get? path).symm
  · rintro front p back e rfl success failure
    obtain ⟨written, ran, flushes, get?⟩ := applyEach_of_failure destination success failure back
    refine ⟨written, ?_, flushes, get?⟩
    rw [FileAccess.run, ran]
  · rw [FileAccess.run, FileAccess.run, applyEach_of_success destination success]

/-- A patch that replaces the text `1` of a file. -/
private def replaceOne (path text : String) : Patch := ⟨path, ⟨[⟨⟨0, 1⟩, text⟩]⟩, 1⟩

/-- The patch of the example gives a text. -/
private theorem outcome_replaceOne :
    (replaceOne "A" "2").outcome ⟨[("A", "1")], 0⟩ = .ok "2" := by
  show (replaceOne "A" "2").apply "1" = .ok "2"
  rw [apply, if_neg (by decide), replaceOne]
  simp only [EditQueue.applyChecked, EditQueue.conflict?, EditQueue.apply, EditQueue.ordered,
    List.mergeSort_singleton]
  rfl

/-- A run with a patch for a file that exists, and one for a file that does not. -/
theorem run_access_missing :
    let source : MemoryFiles := ⟨[("A", "1")], 0⟩
    let a := replaceOne "A" "2"
    let b := replaceOne "B" "3"
    ([a, b].map Patch.path).Nodup ∧ [b, a].Perm [a, b] ∧
      (∃ report written, access.run true [b, a] ⟨source, {}⟩ = (.ok report, ⟨source, written⟩) ∧
        report = ⟨1, ["B"]⟩ ∧ written.get? "A" = some "2" ∧ written.flushes = 1) ∧
      (∃ written, access.run false [a, b] ⟨source, {}⟩
          = (.error (.notFound "B"), ⟨source, written⟩) ∧
        written.get? "A" = some "2" ∧ written.flushes = 0) ∧
      access.run false [a] ⟨source, {}⟩ = access.run true [a] ⟨source, {}⟩ := by
  intro source a b
  have success : a.outcome source = .ok "2" := outcome_replaceOne
  have failure : b.outcome source = .error (.notFound "B") := rfl
  have own : lastOutput? source "A" [a] = some "2" := by
    rw [lastOutput?_cons, outputFor?, success]
    rfl
  have both : lastOutput? source "A" [a, b] = some "2" := by
    rw [lastOutput?_cons, outputFor?, success]
    rfl
  have paths : failedPaths source [a, b] = ["B"] :=
    (failedPaths_cons_ok success).trans (failedPaths_cons_error failure)
  have distinct : ([a, b].map Patch.path).Nodup := by decide
  have perm : [b, a].Perm [a, b] := .swap a b []
  have allowed : ∀ p ∈ [a], ∃ text, p.outcome source = .ok text := by
    simpa using ⟨_, success⟩
  obtain ⟨⟨report, written, -, total, -, failed, flushes, texts, order⟩, stops, -⟩ :=
    run_access [a, b] source {}
  obtain ⟨-, -, agree⟩ := run_access [a] source {}
  obtain ⟨written', ran', flushes', texts'⟩ := order distinct [b, a] perm
  obtain ⟨part, ran, unflushed, texts''⟩ := stops [a] b [] (.notFound "B") rfl allowed failure
  have notApplied : report.notApplied = ["B"] := by
    rw [paths] at failed
    exact List.perm_singleton.mp failed
  have completed : report.completed = 1 := by
    rw [notApplied] at total
    exact Nat.succ.inj total
  refine ⟨distinct, perm, ⟨report, written', ran', ?_, ?_, ?_⟩,
    ⟨part, ran, ?_, unflushed⟩, agree allowed⟩
  · rw [← notApplied, ← completed]
  · rw [texts', texts, both]
    rfl
  · rw [flushes', flushes]
  · rw [texts'', own]
    rfl

end Transfer

end JavaRefactor
