import JavaRefactor.Patch.Basic

/-!
# Files

Where patches read and write texts.  Files in memory are texts by name.  A file tree stands for a
directory of a file system that is read and written in place: it has directories, and files whose
bytes may not be text, and its paths are resolved step by step, with the limits that a file system
sets to their lengths.
-/

namespace JavaRefactor

/-- A way to read and write the files that some state holds. -/
structure FileAccess (σ : Type) where
  read : σ → String → Except PatchError String
  write : σ → String → String → Except PatchError σ
  /-- What happens once after a run. -/
  flush : σ → σ

/-- What is found once an entry stands in place of those with its name. -/
theorem lookup_replaced {κ ν : Type} [BEq κ] [LawfulBEq κ] [DecidableEq κ] (entries : List (κ × ν))
    (name : κ) (value : ν) (other : κ) :
    ((name, value) :: entries.filter fun entry => entry.1 != name).lookup other =
      if other = name then some value else entries.lookup other := by
  split
  · rename_i same
    rw [same, List.lookup_cons_self]
  · rename_i ne
    rw [List.lookup_cons, beq_false_of_ne ne]
    induction entries with
    | nil => rfl
    | cons entry entries ih => grind

/-! ### Files in memory -/

/-- Texts by name, and the number of completed runs. -/
structure MemoryFiles where
  contents : List (String × String) := []
  flushes : Nat := 0
  deriving DecidableEq

namespace MemoryFiles

/-- The text of a file. -/
def get? (m : MemoryFiles) (path : String) : Option String := m.contents.lookup path

/-- Give a file a text, replacing the one that it has. -/
def put (m : MemoryFiles) (path content : String) : MemoryFiles :=
  { m with contents := (path, content) :: m.contents.filter fun entry => entry.1 != path }

/-- The files of a list; of entries with one name the last one counts. -/
def ofList (entries : List (String × String)) : MemoryFiles :=
  entries.foldl (fun m entry => m.put entry.1 entry.2) {}

/-- What was put is found. -/
theorem get?_put_self (m : MemoryFiles) (path content : String) :
    (m.put path content).get? path = some content := by
  simp [put, get?]

/-- The other files stay as they are. -/
theorem get?_put_of_ne {m : MemoryFiles} {path other : String} (content : String)
    (ne : path ≠ other) : (m.put path content).get? other = m.get? other := by
  rw [get?, put, lookup_replaced, if_neg ne.symm]
  rfl

end MemoryFiles

/-- Files that are read from one set and written to another. -/
structure Transfer where
  source : MemoryFiles
  destination : MemoryFiles
  deriving DecidableEq

namespace Transfer

/-- Reading the source and writing the destination. -/
def access : FileAccess Transfer where
  read t path :=
    match t.source.get? path with
    | some content => .ok content
    | none => .error (.notFound path)
  write t path content := .ok { t with destination := t.destination.put path content }
  flush t :=
    { t with destination := { t.destination with flushes := t.destination.flushes + 1 } }

end Transfer

/-! ### File trees -/

/-- What a file holds. -/
inductive FileContent where
  | text (content : String)
  /-- Bytes that are not text. -/
  | binary
  deriving DecidableEq

/-- The text that bytes encode in UTF-8, if they encode one. -/
def FileContent.ofBytes (bytes : List UInt8) : FileContent :=
  match String.fromUTF8? ⟨bytes.toArray⟩ with
  | some content => text content
  | none => binary

/-- Files and directories by the names on the way to them.  Directories on the way to
something exist without being listed, and so do the directories above the tree, to which
only `..` leads; nothing else is known outside. -/
structure FileTree where
  files : List (List String × FileContent) := []
  directories : List (List String) := []
  deriving DecidableEq

namespace FileTree

/-- Whether the names lead to the tree itself or to a directory above it. -/
def isAbove (names : List String) : Bool := names.all (· == "..")

/-- Whether the names lead to a directory. -/
def isDirectory (t : FileTree) (names : List String) : Bool :=
  isAbove names || t.directories.any names.isPrefixOf
    || t.files.any fun entry => names.isPrefixOf entry.1 && names != entry.1

/-- The directory that holds a directory. -/
def parent (names : List String) : List String :=
  if isAbove names then names ++ [".."] else names.dropLast

/-- The greatest number of bytes of one step of a path. -/
def longestStep : Nat := 255

/-- The greatest number of bytes of a path. -/
def longestPath : Nat := 4095

/-- Follow the steps of a path from a directory.  An empty step and `.` stay there, and `..`
goes up; every step but the last must lead to a directory, and none may be too long. -/
def follow (t : FileTree) (path : String) :
    List String → List String → Except PatchError (List String)
  | names, [] => .ok names
  | names, step :: steps =>
    if !t.isDirectory names then
      if (t.files.lookup names).isSome then .error (.inaccessible path)
      else .error (.notFound path)
    else if longestStep < step.utf8ByteSize then .error (.inaccessible path)
    else if step = "" ∨ step = "." then follow t path names steps
    else if step = ".." then follow t path (parent names) steps
    else follow t path (names ++ [step]) steps

/-- The steps of a path. -/
def stepsOf (path : String) : List String := (path.toList.splitOn '/').map String.ofList

/-- The names to which a path leads.  No path contains a null character, and one that begins
with a slash starts far above the tree. -/
def resolve (t : FileTree) (path : String) : Except PatchError (List String) :=
  if path.toList.contains (Char.ofNat 0) || decide (longestPath < path.utf8ByteSize) then
    .error (.inaccessible path)
  else
    t.follow path (if path.toList.head? = some '/' then [".."] else []) (stepsOf path)

/-- The text of a file. -/
def read (t : FileTree) (path : String) : Except PatchError String := do
  let names ← t.resolve path
  match t.files.lookup names with
  | some (.text content) => return content
  | some .binary => throw (.inaccessible path)
  | none => throw (if t.isDirectory names then .inaccessible path else .notFound path)

/-- The tree in which the names lead to a file with some content. -/
def put (t : FileTree) (names : List String) (content : FileContent) : FileTree :=
  { t with files := (names, content) :: t.files.filter fun entry => entry.1 != names }

/-- The tree in which a file has a text; a file that is new needs its directory. -/
def write (t : FileTree) (path content : String) : Except PatchError FileTree := do
  let names ← t.resolve path
  if t.isDirectory names then throw (.inaccessible path)
  else if !t.isDirectory (parent names) then throw (.notFound path)
  else return t.put names (.text content)

/-- Reading and writing in one tree, in which there is nothing to flush. -/
def access : FileAccess FileTree where
  read := read
  write := write
  flush t := t

/-- The names of a path that is resolved without looking at the tree. -/
def namesOf (path : String) : List String := (stepsOf path).filter fun s => s != "" && s != "."

/-- Add a file, with all directories on the way. -/
def addFile (t : FileTree) (path : String) (content : FileContent) : FileTree :=
  t.put (namesOf path) content

/-- Add a directory, with all directories on the way. -/
def addDirectory (t : FileTree) (path : String) : FileTree :=
  { t with directories := namesOf path :: t.directories }

end FileTree

end JavaRefactor
