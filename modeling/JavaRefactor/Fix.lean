import JavaRefactor.Edit
import JavaRefactor.Expansion.Reference

/-!
# Fixes

A fix holds text edits against the source of a unit together with the imports that the new
text relies on.  To apply it, the import lines that the unit does not have yet become one
more insertion.
-/

namespace JavaRefactor

/-- Edits of one unit and the imports that they need. -/
structure Fix where
  edits : List TextEdit
  imports : PendingImports
  deriving DecidableEq

namespace Fix

/-- The fix that changes nothing. -/
def empty : Fix := ⟨[], .empty⟩

/-- Whether a fix changes nothing. -/
def isEmpty (f : Fix) : Bool :=
  f.edits.isEmpty && f.imports.classes.isEmpty && f.imports.statics.isEmpty

/-- Two fixes of one unit together. -/
def merge (f g : Fix) : Fix :=
  { edits := f.edits ++ g.edits
    imports :=
      { classes := f.imports.classes.union g.imports.classes
        statics := f.imports.statics.union g.imports.statics } }

/-- The import lines that a unit lacks; those of classes come first. -/
def importLines (f : Fix) (u : CompilationUnit) : List String :=
  (f.imports.classes.names.filter fun path => !u.hasImport path false).map
      (fun path => "import " ++ path ++ ";")
    ++ (f.imports.statics.names.filter fun path => !u.hasImport path true).map
      (fun path => "import static " ++ path ++ ";")

/-- The text that puts lines at the insertion point of imports.  After something they start
on a new line; at the top of a file a blank line follows them. -/
def importText (lead : String) (lines : List String) : String :=
  if lead = "" then String.join (lines.map (· ++ "\n")) ++ "\n"
  else lead ++ "\n".intercalate lines

/-- The edits that apply a fix to a unit. -/
def queue (f : Fix) (u : CompilationUnit) : EditQueue :=
  match f.importLines u with
  | [] => ⟨f.edits⟩
  | line :: lines =>
    let (offset, lead) := u.importInsertionPoint
    ⟨f.edits ++ [.insertion offset (importText lead (line :: lines))]⟩

/-- The source of a unit after a fix. -/
def apply (f : Fix) (u : CompilationUnit) : Except EditConflict String :=
  (f.queue u).applyChecked u.source

end Fix

end JavaRefactor
