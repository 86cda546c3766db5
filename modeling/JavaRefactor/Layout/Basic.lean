import JavaRefactor.Span

/-!
# Laid-out text

A layout is printed text that still knows which part of it belongs to which syntax node.
Its text, the spans of its nodes and the spans of its comments are three views of it.
Spans of nodes are listed in pre-order: a node comes before the nodes inside it, and nodes
come in the order in which they are written.
-/

namespace JavaRefactor

/-- Text in which syntax nodes and comments are marked. -/
inductive Layout where
  | text (s : String)
  | node (parts : List Layout)
  | comment (s : String)

namespace Layout

/-! ### Text and width -/

mutual

/-- The text alone. -/
def toText : Layout → String
  | text s => s
  | node parts => textOf parts
  | comment s => s

/-- The text of several layouts written one after the other. -/
def textOf : List Layout → String
  | [] => ""
  | l :: ls => toText l ++ textOf ls

end

/-- The number of bytes of the text. -/
def width (l : Layout) : Nat := l.toText.utf8ByteSize

/-- The text of layouts side by side is that of both. -/
@[simp] theorem textOf_append (as bs : List Layout) :
    textOf (as ++ bs) = textOf as ++ textOf bs := by
  induction as with
  | nil => simp [textOf]
  | cons a as ih => simp [textOf, ih, String.append_assoc]

/-! ### Spans -/

mutual

/-- The spans of the nodes of a layout that starts at some offset. -/
def nodeSpans (start : Nat) : Layout → List Span
  | text _ => []
  | node parts =>
    Span.ofOffsets start (start + (textOf parts).utf8ByteSize) :: nodeSpansOf start parts
  | comment _ => []

/-- The spans of the nodes of several layouts, of which the first starts at some offset. -/
def nodeSpansOf (start : Nat) : List Layout → List Span
  | [] => []
  | l :: ls => nodeSpans start l ++ nodeSpansOf (start + l.width) ls

end

mutual

/-- The spans of the comments of a layout that starts at some offset. -/
def commentSpans (start : Nat) : Layout → List Span
  | text _ => []
  | node parts => commentSpansOf start parts
  | comment s => [Span.ofOffsets start (start + s.utf8ByteSize)]

/-- The spans of the comments of several layouts, of which the first starts at some
offset. -/
def commentSpansOf (start : Nat) : List Layout → List Span
  | [] => []
  | l :: ls => commentSpans start l ++ commentSpansOf (start + l.width) ls

end

/-- The comments of layouts side by side stand under their spans, the second ones behind the first
text. -/
theorem commentSpansOf_append (start : Nat) (as bs : List Layout) :
    commentSpansOf start (as ++ bs) =
      commentSpansOf start as ++ commentSpansOf (start + (textOf as).utf8ByteSize) bs := by
  induction as generalizing start with
  | nil => simp [commentSpansOf, textOf]
  | cons a as ih =>
    simp [commentSpansOf, textOf, ih, width, Nat.add_assoc]

/-! ### Combining layouts -/

/-- Several groups of layouts with a separator between each two. -/
def separated (separator : String) : List (List Layout) → List Layout
  | [] => []
  | [group] => group
  | group :: groups => group ++ text separator :: separated separator groups

/-- Layouts between an opening and a closing text. -/
def within (opening closing : String) (inner : List Layout) : List Layout :=
  text opening :: inner ++ [text closing]

end Layout

end JavaRefactor
