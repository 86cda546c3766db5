import JavaRefactor.Patch.Files

/-!
# Runs of patches

A run applies patches in order: it reads a file, applies the patch, and writes the result.
A run that keeps going passes over the files that fail and reports them; any other run stops
at the first failure, and then the files are not flushed.
-/

namespace JavaRefactor

/-- The outcome of a run that was not stopped. -/
structure RunReport where
  /-- The number of files that were changed. -/
  completed : Nat
  /-- The paths of the files that were not, in order. -/
  notApplied : List String
  deriving DecidableEq

namespace FileAccess

/-- Change the file of one patch. -/
def applyPatch {σ : Type} (access : FileAccess σ) (p : Patch) (files : σ) :
    Except PatchError σ := do
  let content ← access.read files p.path
  access.write files p.path (← p.apply content)

/-- Apply patches one after the other.  The number of changed files and the paths of the
others are reported, unless the run stops at a failure. -/
def applyEach {σ : Type} (access : FileAccess σ) (keepGoing : Bool) :
    List Patch → σ → Except PatchError (Nat × List String) × σ
  | [], files => (.ok (0, []), files)
  | p :: ps, files =>
    match access.applyPatch p files with
    | .ok files =>
      let (result, files) := applyEach access keepGoing ps files
      (result.map fun (completed, failed) => (completed + 1, failed), files)
    | .error e =>
      if keepGoing then
        let (result, files) := applyEach access keepGoing ps files
        (result.map fun (completed, failed) => (completed, p.path :: failed), files)
      else (.error e, files)

/-- Apply patches to files and report what happened. -/
def run {σ : Type} (access : FileAccess σ) (keepGoing : Bool) (patches : List Patch)
    (files : σ) : Except PatchError RunReport × σ :=
  match access.applyEach keepGoing patches files with
  | (.ok (completed, failed), files) =>
    (.ok ⟨completed, failed.mergeSort fun a b => decide (a ≤ b)⟩, access.flush files)
  | (.error e, files) => (.error e, files)

end FileAccess

end JavaRefactor
