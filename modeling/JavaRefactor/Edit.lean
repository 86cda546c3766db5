import JavaRefactor.Span
import JavaRefactor.Text.Quoted

/-!
# Text edits

An edit replaces the text under a span.  Edits against one source text are queued and then
spliced in with a single pass in the order of their spans; edits with equal spans keep the
order in which they were queued.  Two neighbours in that order are in conflict when the
first ends after the second starts, unless both only insert.
-/

namespace JavaRefactor

/-- New text in place of a span; an empty span inserts, an empty text deletes. -/
structure TextEdit where
  span : Span
  text : String
  deriving DecidableEq

namespace TextEdit

/-- The edit that inserts text at an offset. -/
def insertion (offset : Nat) (text : String) : TextEdit := ⟨⟨offset, offset⟩, text⟩

/-- The edit that removes the text under a span. -/
def deletion (span : Span) : TextEdit := ⟨span, ""⟩

/-- Whether the edit removes nothing. -/
def isInsertion (e : TextEdit) : Bool := e.span.isEmpty

/-- An edit as messages write it. -/
def display (e : TextEdit) : String := e.span.display ++ " -> " ++ Text.displayed e.text

/-- The order in which edits are applied: by start, then by end. -/
def le (a b : TextEdit) : Bool :=
  decide (a.span.start < b.span.start) ||
    (a.span.start == b.span.start && decide (a.span.stop ≤ b.span.stop))

/-- Whether two edits, the first not after the second, claim a byte in common. -/
def collides (first second : TextEdit) : Bool :=
  decide (second.span.start < first.span.stop) && !(first.isInsertion && second.isInsertion)

end TextEdit

/-- Two queued edits that claim the same text. -/
structure EditConflict where
  first : TextEdit
  second : TextEdit
  deriving DecidableEq

/-- What a message says about a conflict. -/
def EditConflict.message (c : EditConflict) : String :=
  "conflicting edits " ++ c.first.display ++ " and " ++ c.second.display

/-- Edits against one source text, in the order in which they were queued. -/
structure EditQueue where
  edits : List TextEdit := []
  deriving DecidableEq

namespace EditQueue

/-- Queue one more edit. -/
def push (q : EditQueue) (e : TextEdit) : EditQueue := ⟨q.edits ++ [e]⟩

/-- Queue several edits. -/
def append (q : EditQueue) (es : List TextEdit) : EditQueue := ⟨q.edits ++ es⟩

/-- Whether nothing is queued. -/
def isEmpty (q : EditQueue) : Bool := q.edits.isEmpty

/-- The edits in the order in which they are applied. -/
def ordered (q : EditQueue) : List TextEdit := q.edits.mergeSort TextEdit.le

/-! ### Conflicts -/

/-- The first two neighbours that collide. -/
def firstCollision? : List TextEdit → Option EditConflict
  | a :: b :: es => if a.collides b then some ⟨a, b⟩ else firstCollision? (b :: es)
  | _ => none

/-- A conflict between two queued edits, if there is one. -/
def conflict? (q : EditQueue) : Option EditConflict := firstCollision? q.ordered

/-! ### Splicing

The pass keeps the offset up to which the source is settled and the characters from there
on.  The span of an edit is clamped to what is left. -/

/-- The text that results from splicing edits into the characters after offset `cursor` of
a source of `limit` bytes. -/
def splice (limit : Nat) : Nat → List Char → List TextEdit → List Char
  | _, rest, [] => rest
  | cursor, rest, e :: es =>
    let start := min (max e.span.start cursor) limit
    let stop := min (max e.span.stop start) limit
    Text.takeBytes (start - cursor) rest ++ e.text.toList
      ++ splice limit stop (Text.dropBytes (stop - cursor) rest) es

/-- The source with every edit spliced in, overlapping or not. -/
def apply (q : EditQueue) (source : String) : String :=
  String.ofList (splice source.utf8ByteSize 0 source.toList q.ordered)

/-- Splicing in which every piece of the source is a slice of it, which must begin and end between
characters, in order.  So a cursor behind the end of the source, to which no offset could be
clamped, makes a slice fail too. -/
def spliceSlices? (source : List Char) : Nat → List TextEdit → Option (List Char)
  | cursor, [] => Text.slice? source cursor (Text.byteLength source)
  | cursor, e :: es => do
    let start := min (max e.span.start cursor) (Text.byteLength source)
    let stop := min (max e.span.stop start) (Text.byteLength source)
    let before ← Text.slice? source cursor start
    let behind ← spliceSlices? source stop es
    return before ++ e.text.toList ++ behind

/-- The source with every edit spliced in, where no slice of it cuts a character. -/
def applySlices? (q : EditQueue) (source : String) : Option String :=
  (spliceSlices? source.toList 0 q.ordered).map String.ofList

/-- The source with every edit spliced in, unless two of them are in conflict. -/
def applyChecked (q : EditQueue) (source : String) : Except EditConflict String :=
  match q.conflict? with
  | some conflict => .error conflict
  | none => .ok (q.apply source)

end EditQueue

end JavaRefactor
