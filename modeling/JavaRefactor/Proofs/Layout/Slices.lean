import JavaRefactor.Span

/-!
# Text at an offset

`TextAt source start text` says that a text stands in a source at a byte offset.  The slice
under the span of the text is then the text itself (`TextAt.slice?_eq`), since both ends of
the span are character boundaries of the source.
-/

namespace JavaRefactor

namespace Text

/-- The bytes of a text are those of its characters. -/
theorem byteLength_toList (s : String) : byteLength s.toList = s.utf8ByteSize := by
  have sizes (cs : List Char) : byteLength cs = (String.ofList cs).utf8ByteSize := by
    induction cs with
    | nil => rfl
    | cons c cs ih =>
      have split : String.ofList (c :: cs) = String.singleton c ++ String.ofList cs := by
        rw [← String.toList_inj]
        simp
      rw [byteLength_cons, ih, split, String.utf8ByteSize_append, String.utf8ByteSize_singleton]
  rw [sizes, String.ofList_toList]

/-- There are no characters in no bytes. -/
theorem takeBytes_zero (cs : List Char) : takeBytes 0 cs = [] := by
  cases cs with
  | nil => rfl
  | cons c cs =>
    have pos := c.utf8Size_pos
    rw [takeBytes, if_neg (by omega)]

/-- Without no bytes, a text is as it was. -/
theorem dropBytes_zero (cs : List Char) : dropBytes 0 cs = cs := by
  cases cs with
  | nil => rfl
  | cons c cs =>
    have pos := c.utf8Size_pos
    rw [dropBytes, if_neg (by omega)]

/-- Cutting past some characters takes them whole. -/
theorem takeBytes_append (n : Nat) (as bs : List Char) :
    takeBytes (byteLength as + n) (as ++ bs) = as ++ takeBytes n bs := by
  induction as with
  | nil => rw [byteLength_nil, Nat.zero_add, List.nil_append, List.nil_append]
  | cons a as ih =>
    have rest : a.utf8Size + byteLength as + n - a.utf8Size = byteLength as + n := by omega
    rw [byteLength_cons, List.cons_append, takeBytes, if_pos (by omega), rest, ih,
      List.cons_append]

/-- Behind its first part, a text goes on as the second one. -/
theorem dropBytes_append (n : Nat) (as bs : List Char) :
    dropBytes (byteLength as + n) (as ++ bs) = dropBytes n bs := by
  induction as with
  | nil => rw [byteLength_nil, Nat.zero_add, List.nil_append]
  | cons a as ih =>
    have rest : a.utf8Size + byteLength as + n - a.utf8Size = byteLength as + n := by omega
    rw [byteLength_cons, List.cons_append, dropBytes, if_pos (by omega), rest, ih]

/-- The first part of a text takes its own bytes. -/
theorem takeBytes_left (as bs : List Char) : takeBytes (byteLength as) (as ++ bs) = as := by
  have h := takeBytes_append 0 as bs
  rw [Nat.add_zero, takeBytes_zero, List.append_nil] at h
  exact h

/-- Without the bytes of its first part, a text is the second one. -/
theorem dropBytes_left (as bs : List Char) : dropBytes (byteLength as) (as ++ bs) = bs := by
  have h := dropBytes_append 0 as bs
  rw [Nat.add_zero, dropBytes_zero] at h
  exact h

/-- The end of a first part is a character boundary. -/
theorem isBoundary_left (as bs : List Char) : isBoundary (as ++ bs) (byteLength as) = true := by
  rw [isBoundary, takeBytes_left]
  exact beq_self_eq_true _

/-- The middle of three parts is the slice between its ends. -/
theorem slice?_middle (as bs cs : List Char) :
    slice? (as ++ bs ++ cs) (byteLength as) (byteLength as + byteLength bs) = some bs := by
  have first : isBoundary (as ++ bs ++ cs) (byteLength as) = true := by
    rw [List.append_assoc]
    exact isBoundary_left as (bs ++ cs)
  have second : isBoundary (as ++ bs ++ cs) (byteLength as + byteLength bs) = true := by
    rw [← byteLength_append]
    exact isBoundary_left (as ++ bs) cs
  have cut : byteLength as + byteLength bs - byteLength as = byteLength bs := by omega
  rw [slice?, if_pos ⟨by omega, first, second⟩, cut, List.append_assoc, dropBytes_left,
    takeBytes_left]

end Text

/-- A text stands in a source at some offset. -/
def TextAt (source : String) (start : Nat) (text : String) : Prop :=
  ∃ before after, source = before ++ text ++ after ∧ before.utf8ByteSize = start

namespace TextAt

variable {source text : String} {start : Nat}

/-- A text ends before the source does. -/
theorem stop_le (h : TextAt source start text) :
    start + text.utf8ByteSize ≤ source.utf8ByteSize := by
  obtain ⟨before, after, rfl, rfl⟩ := h
  rw [String.utf8ByteSize_append, String.utf8ByteSize_append]
  omega

/-- What stands inside a text stands in the source. -/
theorem inner {inside : String} (h : TextAt source start text) (before after : String)
    (split : text = before ++ inside ++ after) :
    TextAt source (start + before.utf8ByteSize) inside := by
  obtain ⟨first, last, rfl, rfl⟩ := h
  refine ⟨first ++ before, after ++ last, ?_, String.utf8ByteSize_append⟩
  rw [split]
  simp only [String.append_assoc]

/-- Two texts one after the other stand in the source one after the other. -/
theorem append {more : String} (h : TextAt source start (text ++ more)) :
    TextAt source start text ∧ TextAt source (start + text.utf8ByteSize) more := by
  constructor
  · exact h.inner "" more (by rw [String.empty_append])
  · exact h.inner text "" (by rw [String.append_empty])

/-- The text is the slice of the source under its span. -/
theorem slice?_eq (h : TextAt source start text) :
    Span.slice? ⟨start, start + text.utf8ByteSize⟩ source = some text := by
  obtain ⟨before, after, rfl, rfl⟩ := h
  have middle := Text.slice?_middle before.toList text.toList after.toList
  rw [Text.byteLength_toList, Text.byteLength_toList] at middle
  rw [Span.slice?, sliceText?, String.toList_append, String.toList_append, middle,
    Option.map_some, String.ofList_toList]

end TextAt

end JavaRefactor
