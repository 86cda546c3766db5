import JavaRefactor.Proofs.Edit.Slices

/-!
# The order in which edits are queued

Edits are sorted before they are applied, and the sort keeps the order of the queue only among
edits with one span (`EditQueue.filter_ordered`).  Of edits that are not in conflict only
insertions share a span.  So the same edits in another order give the same text, if insertions
that share an offset are still queued in the same order (`EditQueue.applyChecked_perm`).
-/

namespace JavaRefactor

/-- A list with at most one element is its only permutation. -/
theorem eq_of_perm_of_pairwise_false {α : Type} {l l' : List α} (perm : l.Perm l')
    (short : l.Pairwise fun _ _ => False) : l = l' := by
  match l with
  | [] => exact perm.nil_eq
  | [a] => exact (List.perm_singleton.mp perm.symm).symm
  | a :: b :: l => exact (List.rel_of_pairwise_cons short List.mem_cons_self).elim

/-- Spans are equal if they start and end together. -/
theorem Span.eq_iff {s t : Span} : s = t ↔ s.start = t.start ∧ s.stop = t.stop := by
  cases s
  cases t
  rw [Span.mk.injEq]

namespace EditQueue

open Text

/-! ### Sorted edits -/

/-- Edits that are in order both ways have the same span. -/
theorem span_eq_of_le {a b : TextEdit} (h : a.le b = true) (h' : b.le a = true) :
    a.span = b.span := by
  rw [TextEdit.le_iff] at h h'
  rw [Span.eq_iff]
  omega

/-- Sorting keeps the edits with one span in the order of the queue. -/
theorem filter_ordered (q : EditQueue) (s : Span) :
    q.ordered.filter (fun e => e.span == s) = q.edits.filter fun e => e.span == s := by
  have tied : (q.edits.filter fun e => e.span == s).Pairwise fun a b => a.le b = true := by
    refine List.pairwise_of_forall_mem_list fun a ha b hb => ?_
    have ha := eq_of_beq (List.mem_filter.mp ha).2
    have hb := eq_of_beq (List.mem_filter.mp hb).2
    rw [TextEdit.le_iff, ha, hb]
    exact .inr ⟨rfl, Nat.le_refl _⟩
  have sub : (q.edits.filter fun e => e.span == s).Sublist q.ordered :=
    List.sublist_mergeSort TextEdit.le_trans TextEdit.le_total tied List.filter_sublist
  have kept := sub.filter fun e => e.span == s
  rw [List.filter_filter] at kept
  simp only [Bool.and_self] at kept
  exact (kept.eq_of_length (q.ordered_perm.filter _).length_eq.symm).symm

/-- Queues that hold the same edits at a span hold the same edits there. -/
theorem mem_of_filter_eq {es es' : List TextEdit} {e : TextEdit}
    (same : es.filter (fun f => f.span == e.span) = es'.filter fun f => f.span == e.span)
    (he : e ∈ es) : e ∈ es' := by
  have found : e ∈ es.filter fun f => f.span == e.span :=
    List.mem_filter.mpr ⟨he, beq_self_eq_true e.span⟩
  rw [same] at found
  exact (List.mem_filter.mp found).1

/-- The first one of sorted edits comes before all of them. -/
theorem le_of_mem_cons {a b : TextEdit} {es : List TextEdit}
    (sorted : (a :: es).Pairwise fun a b => a.le b = true) (hb : b ∈ a :: es) :
    a.le b = true := by
  rcases List.mem_cons.mp hb with rfl | hb
  · exact TextEdit.le_iff.mpr (.inr ⟨rfl, Nat.le_refl _⟩)
  · exact List.rel_of_pairwise_cons sorted hb

/-- Sorted edits are equal if those with one span are, whatever the span. -/
theorem eq_of_filter_eq {es es' : List TextEdit}
    (sorted : es.Pairwise fun a b => a.le b = true)
    (sorted' : es'.Pairwise fun a b => a.le b = true)
    (same : ∀ s, es.filter (fun e => e.span == s) = es'.filter fun e => e.span == s) :
    es = es' := by
  induction es generalizing es' with
  | nil =>
    cases es' with
    | nil => rfl
    | cons b es' => exact absurd (mem_of_filter_eq (same b.span).symm List.mem_cons_self) (by simp)
  | cons a es ih =>
    cases es' with
    | nil => exact absurd (mem_of_filter_eq (same a.span) List.mem_cons_self) (by simp)
    | cons b es' =>
      -- each head is in both lists, so neither of them can come strictly first
      have hb : b ∈ a :: es := mem_of_filter_eq (same b.span).symm List.mem_cons_self
      have ha : a ∈ b :: es' := mem_of_filter_eq (same a.span) List.mem_cons_self
      have span := span_eq_of_le (le_of_mem_cons sorted hb) (le_of_mem_cons sorted' ha)
      have heads := same a.span
      simp only [List.filter_cons, span, beq_self_eq_true, if_true, List.cons.injEq] at heads
      obtain ⟨rfl, -⟩ := heads
      congr 1
      refine ih sorted.of_cons sorted'.of_cons fun s => ?_
      have rest := same s
      rw [List.filter_cons, List.filter_cons] at rest
      split at rest
      · exact (List.cons.inj rest).2
      · exact rest

/-! ### Queues with the same edits -/

variable {q q' : EditQueue}

/-- The insertions at an offset, in the order of the queue. -/
def insertionsAt (q : EditQueue) (n : Nat) : List TextEdit :=
  q.edits.filter fun e => e.isInsertion && e.span.start == n

/-- Of edits that are apart, only insertions share a span. -/
theorem filter_eq_of_perm (perm : q.edits.Perm q'.edits)
    (forward : ∀ e ∈ q.edits, e.span.start ≤ e.span.stop)
    (apart : q.edits.Pairwise TextEdit.Apart)
    (ties : ∀ n, q.insertionsAt n = q'.insertionsAt n) (s : Span) :
    q.edits.filter (fun e => e.span == s) = q'.edits.filter fun e => e.span == s := by
  by_cases empty : s.start = s.stop
  · have insertions {es : List TextEdit} (forward : ∀ e ∈ es, e.span.start ≤ e.span.stop) :
        es.filter (fun e => e.span == s)
          = es.filter fun e => e.isInsertion && e.span.start == s.start := by
      refine List.filter_congr fun e he => ?_
      have own := forward e he
      rw [Bool.eq_iff_iff, Bool.and_eq_true, beq_iff_eq, beq_iff_eq, TextEdit.isInsertion,
        Span.isEmpty, decide_eq_true_eq, Span.eq_iff]
      omega
    rw [insertions forward, insertions fun e he => forward e (perm.mem_iff.mpr he)]
    exact ties s.start
  · refine eq_of_perm_of_pairwise_false (perm.filter _) ?_
    refine (apart.filter _).imp_of_mem fun {a b} ha hb apart => ?_
    obtain ⟨ha, span⟩ := List.mem_filter.mp ha
    have own := forward a ha
    rw [eq_of_beq span] at own
    rw [TextEdit.Apart, eq_of_beq span, eq_of_beq (List.mem_filter.mp hb).2] at apart
    omega

/-- The same edits are applied in the same order. -/
theorem ordered_eq_of_perm (perm : q.edits.Perm q'.edits)
    (forward : ∀ e ∈ q.edits, e.span.start ≤ e.span.stop)
    (apart : q.edits.Pairwise TextEdit.Apart)
    (ties : ∀ n, q.insertionsAt n = q'.insertionsAt n) : q.ordered = q'.ordered := by
  refine eq_of_filter_eq q.sorted_ordered q'.sorted_ordered fun s => ?_
  rw [filter_ordered, filter_ordered, filter_eq_of_perm perm forward apart ties]

/-- If no two insertions share an offset, those at an offset are in any order. -/
theorem insertionsAt_eq_of_perm (perm : q.edits.Perm q'.edits)
    (distinct : q.edits.Pairwise fun a b =>
      a.isInsertion = true → b.isInsertion = true → a.span.start ≠ b.span.start) (n : Nat) :
    q.insertionsAt n = q'.insertionsAt n := by
  refine eq_of_perm_of_pairwise_false (perm.filter _) ?_
  refine (distinct.filter _).imp_of_mem fun {a b} ha hb ne => ?_
  have ha := (List.mem_filter.mp ha).2
  have hb := (List.mem_filter.mp hb).2
  rw [Bool.and_eq_true, beq_iff_eq] at ha hb
  exact ne ha.1 hb.1 (ha.2.trans hb.2.symm)

/-- The order in which edits are queued does not matter.  Edits that start and end between two
characters of the source and are not in conflict give the same text in every order, and splicing
them cuts no character, if no two insertions share an offset, or if those that do are queued in
the same order. -/
theorem applyChecked_perm (q q' : EditQueue) (source : String) (perm : q.edits.Perm q'.edits)
    (inside : ∀ e ∈ q.edits, e.span.start ≤ e.span.stop ∧
      isBoundary source.toList e.span.start = true ∧ isBoundary source.toList e.span.stop = true)
    (compatible : q.conflict? = none)
    (ties : (q.edits.Pairwise fun a b =>
        a.isInsertion = true → b.isInsertion = true → a.span.start ≠ b.span.start) ∨
      ∀ n, q.insertionsAt n = q'.insertionsAt n) :
    ∃ text, (q.applyChecked source = .ok text ∧ q.applySlices? source = some text) ∧
      q'.applyChecked source = .ok text ∧ q'.applySlices? source = some text := by
  have forward : ∀ e ∈ q.edits, e.span.start ≤ e.span.stop := fun e he => (inside e he).1
  have apart := (pairwise_upright_iff forward).mp (q.conflict?_eq_none_iff.mp compatible)
  have ties : ∀ n, q.insertionsAt n = q'.insertionsAt n :=
    ties.elim (insertionsAt_eq_of_perm perm) id
  have same : q.ordered = q'.ordered := ordered_eq_of_perm perm forward apart ties
  have cuts : ∀ e ∈ q.edits,
      IsCut source.toList e.span.start ∧ IsCut source.toList e.span.stop :=
    fun e he => ⟨.inl (inside e he).2.1, .inl (inside e he).2.2⟩
  refine ⟨q.apply source, ⟨?_, applySlices?_of_isCut cuts⟩, ?_, ?_⟩
  · rw [applyChecked, compatible]
  · rw [applyChecked, conflict?, ← same, ← conflict?, compatible, apply, apply, same]
  · rw [applySlices?, ← same, ← applySlices?, applySlices?_of_isCut cuts]

/-- Two imports stay in order, wherever the replacement that follows them is queued. -/
theorem applyChecked_perm_imports :
    let rename : TextEdit := ⟨⟨6, 7⟩, "D"⟩
    let imports : List TextEdit := [.insertion 0 "import b.B;\n", .insertion 0 "import a.A;\n"]
    let q : EditQueue := ⟨imports ++ [rename]⟩
    let q' : EditQueue := ⟨rename :: imports⟩
    q.edits.Perm q'.edits ∧ q.conflict? = none ∧ (∀ n, q.insertionsAt n = q'.insertionsAt n) ∧
      ∃ text, (q.applyChecked "class C \x7b\x7d" = .ok text ∧
          q.applySlices? "class C \x7b\x7d" = some text) ∧
        q'.applyChecked "class C \x7b\x7d" = .ok text ∧
          q'.applySlices? "class C \x7b\x7d" = some text := by
  intro rename imports q q'
  have perm : q.edits.Perm q'.edits := by decide
  have compatible : q.conflict? = none := by
    rw [conflict?, ordered, List.mergeSort_of_pairwise (by decide)]
    rfl
  have ties (n : Nat) : q.insertionsAt n = q'.insertionsAt n := by
    cases n <;> rfl
  exact ⟨perm, compatible, ties,
    applyChecked_perm q q' "class C \x7b\x7d" perm (by decide) compatible (.inr ties)⟩

end EditQueue

end JavaRefactor
