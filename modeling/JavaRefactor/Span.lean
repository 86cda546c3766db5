import JavaRefactor.Text.Bytes

/-!
# Spans of source text

A span is a range of byte offsets into a source text, its end exclusive.  An empty span
marks a node that has no source text of its own.
-/

namespace JavaRefactor

/-- A range of byte offsets. -/
structure Span where
  start : Nat
  stop : Nat
  deriving DecidableEq, Repr, Inhabited

namespace Span

/-- The largest offset that a span can record. -/
def maxOffset : Nat := 0xffffffff

/-- The span of a node that was synthesized. -/
def synthetic : Span := ⟨0, 0⟩

/-- A span between two offsets; offsets beyond the largest recordable one are recorded as
that one. -/
def ofOffsets (start stop : Nat) : Span := ⟨min start maxOffset, min stop maxOffset⟩

/-- The number of bytes covered. -/
def length (s : Span) : Nat := s.stop - s.start

/-- Whether no byte is covered. -/
def isEmpty (s : Span) : Bool := decide (s.stop ≤ s.start)

/-- Whether two spans share a byte; spans that touch do not. -/
def overlaps (a b : Span) : Bool := decide (a.start < b.stop) && decide (b.start < a.stop)

/-- Whether `b` lies within `a`. -/
def contains (a b : Span) : Bool := decide (a.start ≤ b.start) && decide (b.stop ≤ a.stop)

/-- The smallest span that covers both. -/
def merge (a b : Span) : Span := ⟨min a.start b.start, max a.stop b.stop⟩

/-- The text under a span, when the span lies in the source on character boundaries. -/
def slice? (s : Span) (source : String) : Option String :=
  sliceText? source s.start s.stop

/-- A span as messages write it. -/
def display (s : Span) : String := toString s.start ++ ".." ++ toString s.stop

/-- The span of a synthesized node is empty. -/
@[simp] theorem isEmpty_synthetic : synthetic.isEmpty = true := rfl

/-- A span is empty if it has no length. -/
theorem length_eq_zero_iff (s : Span) : s.length = 0 ↔ s.isEmpty = true := by
  simp [length, isEmpty, Nat.sub_eq_zero_iff_le]

/-- A span contains those that neither start before it nor end behind it. -/
theorem contains_iff {a b : Span} :
    a.contains b = true ↔ a.start ≤ b.start ∧ b.stop ≤ a.stop := by
  rw [contains, Bool.and_eq_true, decide_eq_true_eq, decide_eq_true_eq]

/-- What is contained in a contained span is contained. -/
theorem contains_trans {a b c : Span} (h : a.contains b = true) (h' : b.contains c = true) :
    a.contains c = true := by
  rw [contains_iff] at h h' ⊢
  omega

/-- Spans that do not overlap stand one behind the other. -/
theorem overlaps_eq_false_iff {a b : Span} :
    a.overlaps b = false ↔ b.stop ≤ a.start ∨ a.stop ≤ b.start := by
  rw [overlaps, Bool.and_eq_false_iff, decide_eq_false_iff_not, decide_eq_false_iff_not]
  omega

/-- A merged span contains the first one. -/
theorem contains_merge_left (a b : Span) : (a.merge b).contains a = true :=
  contains_iff.mpr ⟨Nat.min_le_left _ _, Nat.le_max_left _ _⟩

/-- A merged span contains the second one. -/
theorem contains_merge_right (a b : Span) : (a.merge b).contains b = true :=
  contains_iff.mpr ⟨Nat.min_le_right _ _, Nat.le_max_right _ _⟩

end Span

end JavaRefactor
