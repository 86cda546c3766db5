import JavaRefactor.Fix

/-!
# Patches

A patch holds what a run changes in one file, and the length of the text that its edits were
made for.  It is applied only to text of that length, and only if no edit splits a character
and no two edits are in conflict.  In place, the new text is written after all that can fail.
-/

namespace JavaRefactor

/-- Why the text of a file is not the text that a patch was made for. -/
inductive Mismatch where
  | length (expected found : Nat)
  | splitCharacter (span : Span)
  deriving DecidableEq

/-- What a message says about text that a patch was not made for. -/
def Mismatch.message : Mismatch → String
  | length expected found =>
    "expected " ++ toString expected ++ " bytes, found " ++ toString found
  | splitCharacter span => "edit at " ++ span.display ++ " splits a character"

/-- Why a file was not changed. -/
inductive PatchError where
  | notFound (path : String)
  /-- The file cannot be read as text, or not be written. -/
  | inaccessible (path : String)
  | notApplicable (path : String) (reason : Mismatch)
  | conflict (path : String) (edits : EditConflict)
  deriving DecidableEq

/-- What a message says about a file that was not changed. -/
def PatchError.message : PatchError → String
  | notFound path => "file " ++ path ++ " not found"
  | inaccessible path => "I/O error for file " ++ path
  | notApplicable path reason =>
    "could not apply diff to file " ++ path ++ ": " ++ reason.message
  | conflict path edits => "conflicting edits in file " ++ path ++ ": " ++ edits.message

/-- The changes of one file. -/
structure Patch where
  path : String
  changes : EditQueue
  /-- The number of bytes of the text that the changes were made for. -/
  baseLength : Nat
  deriving DecidableEq

namespace Patch

/-- The patch that applies a fix of a unit to its file. -/
def ofFix (path : String) (fix : Fix) (u : CompilationUnit) : Patch :=
  ⟨path, fix.queue u, u.source.utf8ByteSize⟩

/-- Whether the patch changes nothing. -/
def isEmpty (p : Patch) : Bool := p.changes.isEmpty

/-- Whether an edit begins and ends between characters of a text. -/
def fits (content : List Char) (e : TextEdit) : Bool :=
  Text.isBoundary content e.span.start && Text.isBoundary content e.span.stop

/-- The text of a file with the patch applied. -/
def apply (p : Patch) (content : String) : Except PatchError String :=
  if content.utf8ByteSize ≠ p.baseLength then
    .error (.notApplicable p.path (.length p.baseLength content.utf8ByteSize))
  else
    match p.changes.edits.find? fun e => !fits content.toList e with
    | some e => .error (.notApplicable p.path (.splitCharacter e.span))
    | none =>
      match p.changes.applyChecked content with
      | .ok changed => .ok changed
      | .error c => .error (.conflict p.path c)

/-- A patch applied to a text in place.  The text is written when all edits have been spliced in;
there is no outcome if a slice of it cuts a character. -/
def rewrite? (p : Patch) : StateT String Option (Except PatchError Unit) := do
  let content ← get
  if content.utf8ByteSize ≠ p.baseLength then
    return .error (.notApplicable p.path (.length p.baseLength content.utf8ByteSize))
  else
    match p.changes.edits.find? fun e => !fits content.toList e with
    | some e => return .error (.notApplicable p.path (.splitCharacter e.span))
    | none =>
      match p.changes.conflict? with
      | some c => return .error (.conflict p.path c)
      | none =>
        let changed ← p.changes.applySlices? content
        set changed
        return .ok ()

end Patch

end JavaRefactor
