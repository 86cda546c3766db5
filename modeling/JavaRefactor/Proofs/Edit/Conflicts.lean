import JavaRefactor.Edit
import JavaRefactor.Proofs.Layout.Chain
import Mathlib.Data.List.Perm.Subperm

/-!
# Conflicts of edits

Two edits are apart if one of them does not end behind the start of the other one.  Only
neighbours in the order in which edits are applied are looked at for a conflict, and that is
enough: if no neighbours collide, each edit ends before all later ones start
(`EditQueue.firstCollision?_eq_none_iff`).  So there is no conflict exactly if all queued edits
are pairwise apart, and a conflict names two of them that overlap
(`EditQueue.conflict?_overlapping`).

A span may be reversed.  Its edit then inserts where the span starts (`TextEdit.upright`), and
with this reading the check is exact for all edits (`EditQueue.conflict?_eq_none_iff`).
-/

namespace JavaRefactor

namespace TextEdit

variable {a b : TextEdit}

/-! ### The order in which edits are applied -/

/-- The order of edits is that of their starts, and then that of their ends. -/
theorem le_iff : a.le b = true ↔ a.span.start < b.span.start ∨
    a.span.start = b.span.start ∧ a.span.stop ≤ b.span.stop := by
  simp only [TextEdit.le, Bool.or_eq_true, Bool.and_eq_true, decide_eq_true_eq, beq_iff_eq]

/-- The order of edits is transitive. -/
theorem le_trans (a b c : TextEdit) (h : a.le b = true) (h' : b.le c = true) :
    a.le c = true := by
  rw [le_iff] at h h' ⊢
  omega

/-- Any two edits are in order one way or the other. -/
theorem le_total (a b : TextEdit) : (a.le b || b.le a) = true := by
  rw [Bool.or_eq_true, le_iff, le_iff]
  omega

/-- An edit that comes first does not start later. -/
theorem start_le_start (h : a.le b = true) : a.span.start ≤ b.span.start := by
  rw [le_iff] at h
  omega

/-! ### Edits apart -/

/-- Two edits that do not claim a byte in common, in whatever order. -/
def Apart (a b : TextEdit) : Prop := a.span.stop ≤ b.span.start ∨ b.span.stop ≤ a.span.start

/-- Being apart has no direction. -/
theorem Apart.symm (h : a.Apart b) : b.Apart a := Or.symm h

/-- The edit as it is applied: one whose span is reversed inserts where the span starts. -/
def upright (e : TextEdit) : TextEdit :=
  { e with span := ⟨e.span.start, max e.span.start e.span.stop⟩ }

/-- An edit whose span is not reversed is upright. -/
theorem upright_of_le (h : a.span.start ≤ a.span.stop) : a.upright = a := by
  rw [upright, Nat.max_eq_right h]

/-- Of two edits apart, the one that is applied first ends before the other one starts. -/
theorem apart_upright_iff (ordered : a.le b = true) :
    a.upright.Apart b.upright ↔ a.upright.span.stop ≤ b.span.start := by
  rw [le_iff] at ordered
  simp only [Apart, upright]
  omega

/-- Of two edits in order, the second collides with the first if it starts before that ends. -/
theorem collides_eq_false_iff (ordered : a.span.start ≤ b.span.start) :
    a.collides b = false ↔ a.upright.span.stop ≤ b.span.start := by
  simp only [collides, isInsertion, Span.isEmpty, upright, Bool.and_eq_false_iff,
    Bool.not_eq_false', Bool.and_eq_true, decide_eq_false_iff_not, decide_eq_true_eq]
  omega

/-- An edit that collides with one that is applied after it overlaps it. -/
theorem overlaps_of_collides (ordered : a.le b = true) (hb : b.span.start ≤ b.span.stop)
    (h : a.collides b = true) : a.span.overlaps b.span = true := by
  rw [collides, Bool.and_eq_true, decide_eq_true_eq] at h
  rw [le_iff] at ordered
  rw [Span.overlaps, Bool.and_eq_true, decide_eq_true_eq, decide_eq_true_eq]
  omega

end TextEdit

namespace EditQueue

/-! ### Neighbours -/

/-- If no neighbours collide, each edit ends before all later ones start. -/
theorem firstCollision?_eq_none_iff {es : List TextEdit}
    (ordered : es.Pairwise fun a b => a.span.start ≤ b.span.start) :
    firstCollision? es = none ↔
      es.Pairwise fun a b => a.upright.span.stop ≤ b.span.start := by
  induction es with
  | nil => simp [firstCollision?]
  | cons a es ih =>
    obtain ⟨first, ordered⟩ := List.pairwise_cons.mp ordered
    cases es with
    | nil => simp [firstCollision?]
    | cons b es =>
      have next := TextEdit.collides_eq_false_iff (first b List.mem_cons_self)
      have rest := ih ordered
      rw [List.pairwise_cons, ← rest, firstCollision?]
      constructor
      · intro h
        cases apart : a.collides b with
        | true =>
          rw [apart] at h
          exact absurd h (by simp)
        | false =>
          rw [apart, if_neg Bool.false_ne_true] at h
          refine ⟨fun c hc => ?_, h⟩
          -- the next edit starts behind the first one, and does not end before it starts
          have behind := next.mp apart
          rcases List.mem_cons.mp hc with rfl | hc
          · exact behind
          · have later := List.rel_of_pairwise_cons (rest.mp h) hc
            have own : b.span.start ≤ b.upright.span.stop := Nat.le_max_left ..
            omega
      · rintro ⟨h, others⟩
        rw [next.mpr (h b List.mem_cons_self), if_neg Bool.false_ne_true]
        exact others

/-- The edits that are reported collide, and one of them follows the other. -/
theorem sublist_of_firstCollision? {es : List TextEdit} {c : EditConflict}
    (h : firstCollision? es = some c) :
    [c.first, c.second].Sublist es ∧ c.first.collides c.second = true := by
  induction es with
  | nil => exact absurd h (by simp [firstCollision?])
  | cons a es ih =>
    cases es with
    | nil => exact absurd h (by simp [firstCollision?])
    | cons b es =>
      rw [firstCollision?] at h
      split at h
      · rename_i collides
        obtain rfl := Option.some.inj h
        exact ⟨((List.nil_sublist es).cons_cons b).cons_cons a, collides⟩
      · obtain ⟨sub, collides⟩ := ih h
        exact ⟨sub.cons a, collides⟩

/-! ### The order of a queue -/

/-- All queued edits are applied. -/
theorem ordered_perm (q : EditQueue) : q.ordered.Perm q.edits :=
  List.mergeSort_perm q.edits TextEdit.le

/-- The edits that are applied are those that are queued. -/
theorem mem_ordered {q : EditQueue} {e : TextEdit} : e ∈ q.ordered ↔ e ∈ q.edits :=
  q.ordered_perm.mem_iff

/-- Edits are applied in order. -/
theorem sorted_ordered (q : EditQueue) : q.ordered.Pairwise fun a b => a.le b = true :=
  List.pairwise_mergeSort TextEdit.le_trans TextEdit.le_total q.edits

/-- Edits are pairwise apart exactly if they are applied one after the other. -/
theorem pairwise_ordered_iff (q : EditQueue) :
    (q.ordered.Pairwise fun a b => a.upright.span.stop ≤ b.span.start) ↔
      q.edits.Pairwise fun a b => a.upright.Apart b.upright := by
  rw [← q.ordered_perm.pairwise_iff TextEdit.Apart.symm]
  constructor
  · exact fun settled => settled.imp Or.inl
  · intro apart
    refine (q.sorted_ordered.and apart).imp ?_
    rintro a b ⟨le, apart⟩
    exact (TextEdit.apart_upright_iff le).mp apart

/-- There is no conflict exactly if the edits are pairwise apart, where an edit with a reversed
span counts as an insertion. -/
theorem conflict?_eq_none_iff (q : EditQueue) :
    q.conflict? = none ↔ q.edits.Pairwise fun a b => a.upright.Apart b.upright := by
  have starts := q.sorted_ordered.imp TextEdit.start_le_start
  rw [← q.pairwise_ordered_iff, conflict?, firstCollision?_eq_none_iff starts]

/-- No two edits that end behind their starts need the reading for reversed spans. -/
theorem pairwise_upright_iff {es : List TextEdit}
    (forward : ∀ e ∈ es, e.span.start ≤ e.span.stop) :
    (es.Pairwise fun a b => a.upright.Apart b.upright) ↔ es.Pairwise TextEdit.Apart := by
  refine List.Pairwise.iff_of_mem fun {a b} ha hb => ?_
  rw [TextEdit.upright_of_le (forward a ha), TextEdit.upright_of_le (forward b hb)]

/-- Edits that are apart, with spans that are not reversed, have no conflict. -/
theorem conflict?_eq_none {q : EditQueue} (apart : q.edits.Pairwise TextEdit.Apart)
    (forward : ∀ e ∈ q.edits, e.span.start ≤ e.span.stop) : q.conflict? = none :=
  q.conflict?_eq_none_iff.mpr ((pairwise_upright_iff forward).mpr apart)

/-- In the order in which they are applied, edits that are pairwise apart are a chain. -/
theorem chain_ordered {q : EditQueue} {stop : Nat} (apart : q.edits.Pairwise TextEdit.Apart)
    (inside : ∀ e ∈ q.edits, e.span.start ≤ e.span.stop ∧ e.span.stop ≤ stop) :
    SpanChain 0 stop (q.ordered.map TextEdit.span) := by
  have settled := q.pairwise_ordered_iff.mpr
    ((pairwise_upright_iff fun e he => (inside e he).1).mpr apart)
  have ordered : q.ordered.Pairwise fun a b => a.span.stop ≤ b.span.start :=
    settled.imp fun h => Nat.le_trans (Nat.le_max_right ..) h
  refine .of_pairwise (List.pairwise_map.mpr ordered) ?_ (Nat.zero_le _)
  intro s hs
  obtain ⟨e, he, rfl⟩ := List.mem_map.mp hs
  exact ⟨Nat.zero_le _, inside e (mem_ordered.mp he)⟩

/-! ### Conflicts -/

/-- A conflict names two queued edits that collide, in the order in which they are applied. -/
theorem subperm_of_conflict? {q : EditQueue} {c : EditConflict} (h : q.conflict? = some c) :
    [c.first, c.second].Subperm q.edits ∧ c.first.le c.second = true ∧
      c.first.collides c.second = true := by
  obtain ⟨sub, collides⟩ := sublist_of_firstCollision? h
  have le : c.first.le c.second = true := by
    simpa using q.sorted_ordered.sublist sub
  exact ⟨sub.subperm.trans q.ordered_perm.subperm, le, collides⟩

/-- Conflicts are found exactly.  If no span is reversed, there is a conflict unless of every two
queued edits one ends before the other one starts, or where it starts.  The edits that it names
are two of the queue, which overlap, and the first one does not start after the second one.  So
without a conflict no edit lies within another one, except for insertions at an edge. -/
theorem conflict?_overlapping (q : EditQueue)
    (forward : ∀ e ∈ q.edits, e.span.start ≤ e.span.stop) :
    (q.conflict? = none ↔ q.edits.Pairwise fun a b =>
      a.span.stop ≤ b.span.start ∨ b.span.stop ≤ a.span.start) ∧
    (∀ c, q.conflict? = some c → [c.first, c.second].Subperm q.edits ∧
      c.first.span.overlaps c.second.span = true ∧
      c.first.span.start ≤ c.second.span.start) ∧
    ∀ a b, [a, b].Subperm q.edits → a.span.contains b.span = true → q.conflict? = none →
      b.span.start = b.span.stop ∧
        (b.span.start = a.span.start ∨ b.span.start = a.span.stop) := by
  have exactly : q.conflict? = none ↔ q.edits.Pairwise TextEdit.Apart := by
    rw [q.conflict?_eq_none_iff, pairwise_upright_iff forward]
  refine ⟨exactly, fun c hc => ?_, fun a b pair within none => ?_⟩
  · obtain ⟨pair, le, collides⟩ := subperm_of_conflict? hc
    have second := forward c.second (pair.subset (by simp))
    exact ⟨pair, TextEdit.overlaps_of_collides le second collides,
      TextEdit.start_le_start le⟩
  · obtain ⟨l, perm, sub⟩ := pair
    have apart : a.Apart b := by
      have both := (exactly.mp none).sublist sub
      exact List.pairwise_pair.mp ((perm.pairwise_iff TextEdit.Apart.symm).mp both)
    have own := forward b (sub.subset (perm.symm.subset (by simp)))
    rw [Span.contains_iff] at within
    simp only [TextEdit.Apart] at apart
    omega

/-- An insertion at the end of a replacement, queued between it and one that it overlaps: the
conflict is found, though the two edits are no neighbours in the queue. -/
theorem conflict?_overlapping_replacements :
    let q : EditQueue := ⟨[⟨⟨4, 6⟩, "b"⟩, ⟨⟨10, 10⟩, "c"⟩, ⟨⟨0, 10⟩, "a"⟩]⟩
    (∀ e ∈ q.edits, e.span.start ≤ e.span.stop) ∧
      ∃ c, q.conflict? = some c ∧ [c.first, c.second].Subperm q.edits ∧
        c.first.span.overlaps c.second.span = true ∧
        c.first.span.start ≤ c.second.span.start := by
  intro q
  have forward : ∀ e ∈ q.edits, e.span.start ≤ e.span.stop := by decide
  obtain ⟨exactly, named, -⟩ := q.conflict?_overlapping forward
  refine ⟨forward, ?_⟩
  cases found : q.conflict? with
  | none => exact absurd (exactly.mp found) (by decide)
  | some c => exact ⟨c, rfl, named c found⟩

end EditQueue

end JavaRefactor
