import JavaRefactor.Proofs.Edit.Conflicts
import JavaRefactor.Proofs.Layout.Slices

/-!
# Splicing cuts no character

Splicing takes slices of the source, and a slice must begin and end between two characters, in
order (`EditQueue.spliceSlices?`).  The offset up to which the source is settled is always such
a place: it is the start or the end of an edit, or the end of the source.  So no slice fails,
whether the edits overlap or not, if each of them starts and ends between two characters or
behind the source (`EditQueue.applySlices?_of_isCut`).
-/

namespace JavaRefactor

/-! ### Boundaries -/

namespace Text

variable {cs : List Char} {m n : Nat}

/-- An offset between two characters cuts a text into two. -/
theorem isBoundary_iff : isBoundary cs n = true ↔ ∃ as bs, cs = as ++ bs ∧ byteLength as = n := by
  constructor
  · intro h
    exact ⟨takeBytes n cs, dropBytes n cs, (takeBytes_append_dropBytes n cs).symm, beq_iff_eq.mp h⟩
  · rintro ⟨as, bs, rfl, rfl⟩
    exact isBoundary_left as bs

/-- The smaller one of two boundaries is one. -/
theorem isBoundary_min (hm : isBoundary cs m = true) (hn : isBoundary cs n = true) :
    isBoundary cs (min m n) = true := by
  rcases Nat.le_total m n with le | le
  · rwa [Nat.min_eq_left le]
  · rwa [Nat.min_eq_right le]

/-- The larger one of two boundaries is one. -/
theorem isBoundary_max (hm : isBoundary cs m = true) (hn : isBoundary cs n = true) :
    isBoundary cs (max m n) = true := by
  rcases Nat.le_total m n with le | le
  · rwa [Nat.max_eq_right le]
  · rwa [Nat.max_eq_left le]

/-- The end of a text is a boundary. -/
theorem isBoundary_byteLength (cs : List Char) : isBoundary cs (byteLength cs) = true :=
  isBoundary_iff.mpr ⟨cs, [], (List.append_nil cs).symm, rfl⟩

/-- The start of a text is a boundary. -/
theorem isBoundary_zero (cs : List Char) : isBoundary cs 0 = true :=
  isBoundary_iff.mpr ⟨[], cs, rfl, rfl⟩

/-- Behind a boundary, offsets count from there. -/
theorem dropBytes_dropBytes (hm : isBoundary cs m = true) (le : m ≤ n) :
    dropBytes (n - m) (dropBytes m cs) = dropBytes n cs := by
  obtain ⟨as, bs, rfl, rfl⟩ := isBoundary_iff.mp hm
  obtain ⟨k, rfl⟩ := Nat.exists_eq_add_of_le le
  rw [dropBytes_left, dropBytes_append, Nat.add_sub_cancel_left]

/-- All bytes of a text are the text. -/
theorem takeBytes_byteLength (cs : List Char) : takeBytes (byteLength cs) cs = cs := by
  have whole := takeBytes_left cs []
  rwa [List.append_nil] at whole

/-- Slicing between boundaries in order succeeds. -/
theorem slice?_eq_some (le : m ≤ n) (hm : isBoundary cs m = true) (hn : isBoundary cs n = true) :
    slice? cs m n = some (takeBytes (n - m) (dropBytes m cs)) := by
  rw [slice?, if_pos ⟨le, hm, hn⟩]

/-- An offset at which a text can be cut once it is clamped to the text: it falls between two
characters, at an end of the text, or behind it. -/
def IsCut (cs : List Char) (n : Nat) : Prop := isBoundary cs n = true ∨ byteLength cs < n

instance (cs : List Char) (n : Nat) : Decidable (IsCut cs n) :=
  inferInstanceAs (Decidable (_ ∨ _))

/-- A cut is a boundary once it is clamped to the text. -/
theorem IsCut.isBoundary_min (h : IsCut cs n) :
    isBoundary cs (min n (byteLength cs)) = true := by
  rcases h with inside | behind
  · exact Text.isBoundary_min inside (isBoundary_byteLength cs)
  · rw [Nat.min_eq_right (Nat.le_of_lt behind)]
    exact isBoundary_byteLength cs

/-- A cut that is not behind the text is a boundary. -/
theorem IsCut.isBoundary_of_le (h : IsCut cs n) (le : n ≤ byteLength cs) :
    isBoundary cs n = true :=
  h.resolve_right (Nat.not_lt.mpr le)

end Text

/-! ### Slicing -/

namespace EditQueue

open Text

/-- Edits that begin and end between characters or behind the source are spliced without cutting
one. -/
theorem spliceSlices?_eq {source : List Char} {cursor : Nat} {es : List TextEdit}
    (hcursor : isBoundary source cursor = true) (le : cursor ≤ byteLength source)
    (cuts : ∀ e ∈ es, IsCut source e.span.start ∧ IsCut source e.span.stop) :
    spliceSlices? source cursor es
      = some (splice (byteLength source) cursor (dropBytes cursor source) es) := by
  induction es generalizing cursor with
  | nil =>
    rw [spliceSlices?, splice, slice?_eq_some le hcursor (isBoundary_byteLength source)]
    obtain ⟨as, bs, rfl, rfl⟩ := isBoundary_iff.mp hcursor
    rw [dropBytes_left, byteLength_append, Nat.add_sub_cancel_left, takeBytes_byteLength]
  | cons e es ih =>
    obtain ⟨own, own'⟩ := cuts e List.mem_cons_self
    -- both ends are clamped to what is left, which begins and ends at a boundary
    have hstart : isBoundary source (min (max e.span.start cursor) (byteLength source)) = true := by
      rw [Nat.min_max_distrib_right, Nat.min_eq_left le]
      exact isBoundary_max own.isBoundary_min hcursor
    have hstop : isBoundary source (min (max e.span.stop
        (min (max e.span.start cursor) (byteLength source))) (byteLength source)) = true := by
      rw [Nat.min_max_distrib_right, Nat.min_eq_left (Nat.min_le_right _ _)]
      exact isBoundary_max own'.isBoundary_min hstart
    rw [spliceSlices?, splice, slice?_eq_some (by omega) hcursor hstart,
      ih hstop (Nat.min_le_right _ _) fun e' he' => cuts e' (List.mem_cons_of_mem e he'),
      dropBytes_dropBytes hcursor (by omega)]
    rfl

/-- Edits that begin and end between characters or behind the source are spliced in without cutting
one. -/
theorem applySlices?_of_isCut {q : EditQueue} {source : String}
    (cuts : ∀ e ∈ q.edits, IsCut source.toList e.span.start ∧ IsCut source.toList e.span.stop) :
    q.applySlices? source = some (q.apply source) := by
  have spliced := spliceSlices?_eq (isBoundary_zero source.toList) (Nat.zero_le _)
    fun e he => cuts e (mem_ordered.mp he)
  rw [applySlices?, spliced, apply, byteLength_toList, dropBytes_zero]
  rfl

end EditQueue

end JavaRefactor
