import JavaRefactor.Proofs.Layout.Slices
import JavaRefactor.Proofs.Edit.Conflicts
import Mathlib.Data.List.Forall2

/-!
# What splicing keeps

Splicing a chain of edits copies the source between them.  So texts of the source that no edit
overlaps stand in the new text too, in the same order (`EditQueue.inOrder_apply`).  The edits
must end between two characters of the source.
-/

namespace JavaRefactor

/-- Some texts stand in a text, one after the other. -/
def InOrder : List String → String → Prop
  | [], _ => True
  | t :: ts, text => ∃ before after, text = before ++ t ++ after ∧ InOrder ts after

/-- Texts that stand in order in another one do so behind any text. -/
theorem InOrder.prepend {ts : List String} {text : String} (h : InOrder ts text)
    (front : String) : InOrder ts (front ++ text) := by
  cases ts with
  | nil => trivial
  | cons t ts =>
    obtain ⟨before, after, rfl, rest⟩ := h
    exact ⟨front ++ before, after, by simp only [String.append_assoc], rest⟩

namespace Text

/-- Of two cuts of a text, the later one lies in what the earlier one leaves. -/
theorem exists_append_of_byteLength_le {as bs cs ds : List Char} (h : as ++ bs = cs ++ ds)
    (le : byteLength as ≤ byteLength cs) : ∃ gap, cs = as ++ gap ∧ bs = gap ++ ds := by
  rcases List.append_eq_append_iff.mp h with ⟨gap, rfl, rfl⟩ | ⟨gap, rfl, rfl⟩
  · exact ⟨gap, rfl, rfl⟩
  · cases gap with
    | nil => exact ⟨[], by simp, rfl⟩
    | cons c gap =>
      have pos := c.utf8Size_pos
      rw [byteLength_append, byteLength_cons] at le
      omega

end Text

namespace EditQueue

open Text

/-- Splicing copies what stands in front of the edits. -/
theorem splice_append {limit cursor : Nat} {front rest : List Char} {es : List TextEdit}
    (h : SpanChain (cursor + byteLength front) limit (es.map TextEdit.span)) :
    splice limit cursor (front ++ rest) es
      = front ++ splice limit (cursor + byteLength front) rest es := by
  cases es with
  | nil => rw [splice, splice]
  | cons e es =>
    obtain ⟨first, own, others⟩ := h
    have last := others.le
    have start : min (max e.span.start cursor) limit = e.span.start := by omega
    have start' : min (max e.span.start (cursor + byteLength front)) limit = e.span.start := by
      omega
    have stop : min (max e.span.stop e.span.start) limit = e.span.stop := by omega
    have before : e.span.start - cursor
        = byteLength front + (e.span.start - (cursor + byteLength front)) := by omega
    have behind : e.span.stop - cursor
        = byteLength front + (e.span.stop - (cursor + byteLength front)) := by omega
    rw [splice, splice, start, start', stop, before, behind, takeBytes_append, dropBytes_append]
    simp only [List.append_assoc]

/-- The first edit replaces what is between its ends, and the splicing goes on behind it. -/
theorem splice_cons {limit cursor : Nat} {before under back : List Char} {e : TextEdit}
    {es : List TextEdit} (starts : cursor + byteLength before = e.span.start)
    (stops : e.span.start + byteLength under = e.span.stop) (le : e.span.stop ≤ limit) :
    splice limit cursor (before ++ (under ++ back)) (e :: es)
      = before ++ (e.text.toList ++ splice limit e.span.stop back es) := by
  have start : min (max e.span.start cursor) limit = e.span.start := by omega
  have stop : min (max e.span.stop e.span.start) limit = e.span.stop := by omega
  have first : e.span.start - cursor = byteLength before := by omega
  have both : e.span.stop - cursor = byteLength (before ++ under) := by
    rw [byteLength_append]
    omega
  rw [splice, start, stop, first, takeBytes_left, both, ← List.append_assoc before under,
    dropBytes_left, List.append_assoc]

/-- A single edit replaces what is between its ends. -/
theorem apply_singleton {before under back : List Char} {e : TextEdit}
    (starts : byteLength before = e.span.start)
    (stops : e.span.start + byteLength under = e.span.stop) :
    apply ⟨[e]⟩ (String.ofList (before ++ (under ++ back)))
      = String.ofList (before ++ (e.text.toList ++ back)) := by
  have size : (String.ofList (before ++ (under ++ back))).utf8ByteSize
      = e.span.stop + byteLength back := by
    rw [← byteLength_toList, String.toList_ofList, byteLength_append, byteLength_append]
    omega
  rw [apply, ordered, List.mergeSort_singleton, size, String.toList_ofList,
    splice_cons (by omega) stops (by omega), splice]

/-- Behind an edit the splicing goes on where the edit ends. -/
theorem exists_splice_cons {limit cursor : Nat} {under rest : List Char} {e : TextEdit}
    {es : List TextEdit} (h : SpanChain cursor limit ((e :: es).map TextEdit.span))
    (ends : cursor + byteLength under = e.span.stop) :
    ∃ front, splice limit cursor (under ++ rest) (e :: es)
      = front ++ splice limit e.span.stop rest es := by
  obtain ⟨first, own, others⟩ := h
  have last := others.le
  have start : min (max e.span.start cursor) limit = e.span.start := by omega
  have stop : min (max e.span.stop e.span.start) limit = e.span.stop := by omega
  have behind : e.span.stop - cursor = byteLength under := by omega
  rw [splice, start, stop, behind, dropBytes_left]
  exact ⟨_, rfl⟩

/-- A text in front of the edits stands in the spliced text, and the splicing goes on behind
it. -/
theorem exists_splice_text {source t : String} {limit cursor start : Nat}
    {settled rest : List Char} {es : List TextEdit} (text : TextAt source start t)
    (split : source.toList = settled ++ rest) (hcursor : byteLength settled = cursor)
    (le : cursor ≤ start)
    (chain : SpanChain (start + t.utf8ByteSize) limit (es.map TextEdit.span)) :
    ∃ settled' rest' before, source.toList = settled' ++ rest' ∧
      byteLength settled' = start + t.utf8ByteSize ∧
        String.ofList (splice limit cursor rest es)
          = before ++ t ++ String.ofList (splice limit (start + t.utf8ByteSize) rest' es) := by
  obtain ⟨first, last, whole, hstart⟩ := text
  rw [← byteLength_toList] at hstart
  have cut : settled ++ rest = first.toList ++ (t.toList ++ last.toList) := by
    rw [← split, whole, String.toList_append, String.toList_append, List.append_assoc]
  obtain ⟨gap, hgap, rfl⟩ := exists_append_of_byteLength_le cut (by omega)
  have size : cursor + byteLength (gap ++ t.toList) = start + t.utf8ByteSize := by
    rw [byteLength_append, byteLength_toList, ← hstart, hgap, byteLength_append]
    omega
  rw [← List.append_assoc] at split ⊢
  rw [← size] at chain ⊢
  refine ⟨settled ++ (gap ++ t.toList), last.toList, String.ofList gap, ?_, ?_, ?_⟩
  · rw [split]
    simp only [List.append_assoc]
  · rw [byteLength_append, hcursor]
  · rw [splice_append chain, String.ofList_append, String.ofList_append, String.ofList_toList]

/-- Texts of the source between the edits stand in the spliced text, in the same order. -/
theorem inOrder_splice {source : String} {limit cursor : Nat} {settled rest : List Char}
    {ks : List Span} {ts : List String} {es : List TextEdit}
    (texts : List.Forall₂
      (fun k t => TextAt source k.start t ∧ k.stop = k.start + t.utf8ByteSize) ks ts)
    (split : source.toList = settled ++ rest) (hcursor : byteLength settled = cursor)
    (kept : SpanChain cursor limit ks) (chain : SpanChain cursor limit (es.map TextEdit.span))
    (ends : ∀ e ∈ es, TextAt source e.span.stop "")
    (apart : ∀ e ∈ es, ∀ k ∈ ks, k.stop ≤ e.span.start ∨ e.span.stop ≤ k.start) :
    InOrder ts (String.ofList (splice limit cursor rest es)) := by
  -- On the texts, and for each of them on the edits: an edit is behind the text, which is then
  -- copied before it, or in front of it, so that its replacement is left in front of all texts.
  induction texts generalizing cursor settled rest es with
  | nil => trivial
  | @cons k t ks ts text _ ih =>
    obtain ⟨text, stop⟩ := text
    induction es generalizing cursor settled rest with
    | nil =>
      obtain ⟨first, own, others⟩ := kept
      have none : SpanChain (k.start + t.utf8ByteSize) limit
          (([] : List TextEdit).map TextEdit.span) := stop ▸ others.le
      obtain ⟨settled', rest', before, split', size, copied⟩ :=
        exists_splice_text text split hcursor first none
      rw [copied]
      refine ⟨before, _, rfl, ih split' size (stop ▸ others) none ?_ ?_⟩ <;> simp
    | cons e es ihes =>
      rcases apart e List.mem_cons_self k List.mem_cons_self with before | behind
      · obtain ⟨first, own, others⟩ := kept
        have chain' : SpanChain (k.start + t.utf8ByteSize) limit
            ((e :: es).map TextEdit.span) := ⟨stop ▸ before, chain.2⟩
        obtain ⟨settled', rest', before, split', size, copied⟩ :=
          exists_splice_text text split hcursor first chain'
        rw [copied]
        refine ⟨before, _, rfl, ih split' size (stop ▸ others) chain' ends ?_⟩
        exact fun e he k' hk => apart e he k' (List.mem_cons_of_mem k hk)
      · obtain ⟨first, last, whole, hstop⟩ := ends e List.mem_cons_self
        rw [← byteLength_toList] at hstop
        have cut : settled ++ rest = first.toList ++ last.toList := by
          rw [← split, whole, String.append_empty, String.toList_append]
        have ordered := chain.bounds_of_mem List.mem_cons_self
        obtain ⟨under, hunder, rfl⟩ := exists_append_of_byteLength_le cut (by omega)
        have under_end : cursor + byteLength under = e.span.stop := by
          rw [← hstop, hunder, byteLength_append, hcursor]
        obtain ⟨front, spliced⟩ := exists_splice_cons chain under_end
        rw [spliced, String.ofList_append]
        refine InOrder.prepend (ihes ?_ hstop ⟨behind, kept.2⟩ chain.2.2 ?_ ?_) _
        · rw [whole, String.append_empty, String.toList_append]
        · exact fun e' he' => ends e' (List.mem_cons_of_mem e he')
        · exact fun e' he' => apart e' (List.mem_cons_of_mem e he')

/-- Texts of the source that no queued edit overlaps stand in the new text, in the same order. -/
theorem inOrder_apply {q : EditQueue} {source : String} {ks : List Span} {ts : List String}
    (texts : List.Forall₂
      (fun k t => TextAt source k.start t ∧ k.stop = k.start + t.utf8ByteSize) ks ts)
    (kept : SpanChain 0 source.utf8ByteSize ks)
    (distinct : q.edits.Pairwise TextEdit.Apart)
    (inside : ∀ e ∈ q.edits, e.span.start ≤ e.span.stop ∧ TextAt source e.span.stop "")
    (apart : ∀ e ∈ q.edits, ∀ k ∈ ks, k.stop ≤ e.span.start ∨ e.span.stop ≤ k.start) :
    InOrder ts (q.apply source) := by
  refine inOrder_splice texts (List.nil_append _).symm rfl kept ?_ ?_ ?_
  · exact chain_ordered distinct fun e he => ⟨(inside e he).1, (inside e he).2.stop_le⟩
  · exact fun e he => (inside e (mem_ordered.mp he)).2
  · exact fun e he => apart e (mem_ordered.mp he)

end EditQueue

end JavaRefactor
