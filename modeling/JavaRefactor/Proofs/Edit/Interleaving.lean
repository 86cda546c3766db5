import JavaRefactor.Proofs.Edit.Slices
import JavaRefactor.Proofs.Edit.Splice

/-!
# What splicing writes

Splicing writes the bytes of the source that no edit covers, in their order, and between them the
text of every edit, once, behind the bytes kept in front of the edit (`EditQueue.Splices`).  This
holds for overlapping edits too (`EditQueue.exists_splices`): edits are applied in the order in
which they start, so what lies between the start of an edit and the offset up to which the source
is settled is covered by an edit that has been applied (`TextEdit.uncovered_cons`).

If the edits are apart, splicing does what the edits do one at a time, from the last one to the
first one, so that none moves the text under those that follow (`EditQueue.apply_interleaves`).
-/

namespace JavaRefactor

/-! ### Bytes -/

namespace Text

/-- The bytes of some characters. -/
def encode (cs : List Char) : List UInt8 := cs.flatMap String.utf8EncodeChar

/-- The bytes of a text. -/
def bytes (s : String) : List UInt8 := s.toByteArray.data.toList

/-- The bytes of a text of some characters are those of the characters. -/
theorem bytes_ofList (cs : List Char) : bytes (String.ofList cs) = encode cs := by
  rw [bytes, String.toByteArray_ofList, List.utf8Encode, List.toList_data_toByteArray]
  rfl

/-- The bytes of a text are those of its characters. -/
theorem bytes_eq_encode (s : String) : bytes s = encode s.toList := by
  rw [← bytes_ofList, String.ofList_toList]

/-- The bytes of characters side by side are those of both. -/
theorem encode_append (as bs : List Char) : encode (as ++ bs) = encode as ++ encode bs :=
  List.flatMap_append

/-- There are as many bytes as the length in bytes says. -/
theorem length_encode (cs : List Char) : (encode cs).length = byteLength cs := by
  induction cs with
  | nil => rfl
  | cons c cs ih =>
    rw [encode, List.flatMap_cons, List.length_append, String.length_utf8EncodeChar,
      byteLength_cons, ← ih]
    rfl

/-- Reading a list from the end of a first part to the start of a last part gives what is
between. -/
theorem flatMap_range'_getElem? (as bs cs : List UInt8) :
    (List.range' as.length bs.length).flatMap (fun i => (as ++ bs ++ cs)[i]?.toList) = bs := by
  induction bs generalizing as with
  | nil => rfl
  | cons b bs ih =>
    have head : (as ++ b :: bs ++ cs)[as.length]? = some b := by simp
    have tail := ih (as ++ [b])
    rw [List.length_append, List.length_singleton, List.append_assoc as, List.singleton_append]
      at tail
    rw [List.length_cons, List.range'_succ, List.flatMap_cons, head, tail]
    rfl

/-- The bytes of a slice are the bytes of the text between its ends. -/
theorem encode_of_slice? {cs piece : List Char} {m n : Nat} (h : slice? cs m n = some piece) :
    encode piece = (List.range' m (n - m)).flatMap fun i => (encode cs)[i]?.toList := by
  unfold slice? at h
  split at h
  · rename_i ends
    obtain ⟨le, hm, hn⟩ := ends
    obtain rfl := Option.some.inj h
    obtain ⟨as, bs, rfl, rfl⟩ := isBoundary_iff.mp hm
    obtain ⟨cs, ds, split, rfl⟩ := isBoundary_iff.mp hn
    obtain ⟨gap, rfl, rfl⟩ := exists_append_of_byteLength_le split le
    have size : byteLength (as ++ gap) - byteLength as = byteLength gap := by
      rw [byteLength_append, Nat.add_sub_cancel_left]
    have whole := flatMap_range'_getElem? (encode as) (encode gap) (encode ds)
    rw [dropBytes_left, size, takeBytes_left, encode_append, encode_append, ← List.append_assoc,
      ← length_encode as, ← length_encode gap, whole]
  · exact absurd h (by simp)

end Text

/-! ### Offsets that no edit covers -/

namespace TextEdit

/-- Whether a byte lies under the span of an edit. -/
def covers (e : TextEdit) (i : Nat) : Bool :=
  decide (e.span.start ≤ i) && decide (i < e.span.stop)

/-- The offsets of the bytes between two offsets that no edit covers. -/
def uncovered (es : List TextEdit) (start stop : Nat) : List Nat :=
  (List.range' start (stop - start)).filter fun i => !es.any (·.covers i)

variable {e : TextEdit} {es es' : List TextEdit} {start mid stop i : Nat}

/-- An edit covers the bytes from the start of its span to before its end. -/
theorem covers_iff : e.covers i = true ↔ e.span.start ≤ i ∧ i < e.span.stop := by
  rw [covers, Bool.and_eq_true, decide_eq_true_eq, decide_eq_true_eq]

/-- Between offsets that are out of order there is nothing. -/
theorem uncovered_of_le (es : List TextEdit) (le : stop ≤ start) :
    uncovered es start stop = [] := by
  rw [uncovered, Nat.sub_eq_zero_of_le le]
  rfl

/-- What is not covered between two offsets is so before or behind an offset between them. -/
theorem uncovered_append (es : List TextEdit) (le : start ≤ mid) (le' : mid ≤ stop) :
    uncovered es start mid ++ uncovered es mid stop = uncovered es start stop := by
  have first : start + (mid - start) = mid := by omega
  have length : stop - start = (mid - start) + (stop - mid) := by omega
  have whole := List.range'_append_1 (s := start) (m := mid - start) (n := stop - mid)
  rw [first, ← length] at whole
  rw [uncovered, uncovered, uncovered, ← List.filter_append, whole]

/-- Only the edits that cover something between the offsets count. -/
theorem uncovered_congr
    (same : ∀ i, start ≤ i → i < stop → es.any (·.covers i) = es'.any (·.covers i)) :
    uncovered es start stop = uncovered es' start stop := by
  refine List.filter_congr fun i hi => ?_
  rw [List.mem_range'_1] at hi
  rw [same i hi.1 (by omega)]

/-- What is not covered does not depend on the order of the edits. -/
theorem uncovered_perm (perm : es.Perm es') :
    uncovered es start stop = uncovered es' start stop :=
  uncovered_congr fun _ _ _ => perm.any_eq

/-- Where no edit covers anything, all bytes are left. -/
theorem uncovered_eq_range' (free : ∀ i, start ≤ i → i < stop → ∀ e ∈ es, e.covers i = false) :
    uncovered es start stop = List.range' start (stop - start) := by
  refine List.filter_eq_self.mpr fun i hi => ?_
  rw [List.mem_range'_1] at hi
  rw [Bool.not_eq_true', List.any_eq_false]
  exact fun e he => Bool.eq_false_iff.mp (free i hi.1 (by omega) e he)

/-- Where each byte is covered by some edit, none is left. -/
theorem uncovered_eq_nil (covered : ∀ i, start ≤ i → i < stop → ∃ e ∈ es, e.covers i = true) :
    uncovered es start stop = [] := by
  refine List.filter_eq_nil_iff.mpr fun i hi => ?_
  rw [List.mem_range'_1] at hi
  rw [Bool.not_eq_true', Bool.not_eq_false, List.any_eq_true]
  exact covered i hi.1 (by omega)

/-- What the first edit leaves of the source.  The source is settled up to `cursor`; up to the
clamped start of the edit it is kept, since all other edits start later, and up to its clamped end
it is covered. -/
theorem uncovered_cons {limit cursor x : Nat} (le : cursor ≤ limit)
    (first : ∀ f ∈ es, e.span.start ≤ f.span.start)
    (hx : min (max e.span.start cursor) limit ≤ x) (hx' : x ≤ limit) :
    uncovered (e :: es) cursor x
      = List.range' cursor (min (max e.span.start cursor) limit - cursor)
        ++ uncovered es (min (max e.span.stop (min (max e.span.start cursor) limit)) limit) x := by
  generalize hstart : min (max e.span.start cursor) limit = start at hx ⊢
  generalize hstop : min (max e.span.stop start) limit = stop
  have kept : uncovered (e :: es) cursor start = List.range' cursor (start - cursor) := by
    refine uncovered_eq_range' fun i hi hi' f hf => ?_
    have later : e.span.start ≤ f.span.start := by
      rcases List.mem_cons.mp hf with rfl | hf
      · exact Nat.le_refl _
      · exact first f hf
    rw [Bool.eq_false_iff, Ne, covers_iff]
    omega
  have replaced {y : Nat} (hy : y ≤ stop) : uncovered (e :: es) start y = [] := by
    refine uncovered_eq_nil fun i hi hi' => ⟨e, List.mem_cons_self, ?_⟩
    rw [covers_iff]
    omega
  rw [← uncovered_append (e :: es) (by omega) hx, kept]
  congr 1
  rcases Nat.le_total x stop with short | long
  · rw [replaced short, uncovered_of_le es short]
  · rw [← uncovered_append (e :: es) (by omega) long, replaced (Nat.le_refl stop), List.nil_append]
    refine uncovered_congr fun i hi hi' => ?_
    have behind : e.covers i = false := by
      rw [Bool.eq_false_iff, Ne, covers_iff]
      omega
    rw [List.any_cons, behind, Bool.false_or]

end TextEdit

/-! ### Snippets -/

/-- What splicing puts together: a byte of the source, given by its offset, or the text of a
queued edit, given with its position in the queue. -/
inductive Snippet where
  | kept (offset : Nat)
  | inserted (edit : TextEdit) (position : Nat)

namespace Snippet

/-- The offset of a kept byte. -/
def offset? : Snippet → Option Nat
  | kept i => some i
  | inserted _ _ => none

/-- The edit whose text a snippet is, and its position in the queue. -/
def edit? : Snippet → Option (TextEdit × Nat)
  | kept _ => none
  | inserted e n => some (e, n)

/-- The bytes that a snippet is written as. -/
def bytes (source : List UInt8) : Snippet → List UInt8
  | kept i => source[i]?.toList
  | inserted e _ => Text.bytes e.text

/-- Kept bytes have their offsets. -/
theorem filterMap_offset?_map_kept (l : List Nat) : (l.map kept).filterMap offset? = l := by
  rw [List.filterMap_map]
  exact List.filterMap_some

/-- Kept bytes are no edits. -/
theorem filterMap_edit?_map_kept (l : List Nat) : (l.map kept).filterMap edit? = [] := by
  rw [List.filterMap_map]
  exact List.filterMap_eq_nil_iff.mpr fun _ _ => rfl

/-- An edit that stands behind some bytes and another edit is that edit, or stands behind it. -/
theorem front_of_append_eq {l : List Nat} {e f : TextEdit} {m n : Nat}
    {front back rest : List Snippet}
    (h : l.map kept ++ inserted f m :: rest = front ++ inserted e n :: back) :
    front = l.map kept ∧ f = e ∨
      ∃ more, front = l.map kept ++ inserted f m :: more ∧ rest = more ++ inserted e n :: back := by
  induction l generalizing front with
  | nil =>
    cases front with
    | nil =>
      obtain ⟨same, -⟩ := List.cons.inj h
      exact .inl ⟨rfl, (inserted.inj same).1⟩
    | cons p front =>
      obtain ⟨rfl, behind⟩ := List.cons.inj h
      exact .inr ⟨front, rfl, behind⟩
  | cons i l ih =>
    cases front with
    | nil => exact Snippet.noConfusion (List.cons.inj h).1
    | cons p front =>
      obtain ⟨rfl, behind⟩ := List.cons.inj h
      rcases ih behind with ⟨rfl, same⟩ | ⟨more, rfl, others⟩
      · exact .inl ⟨rfl, same⟩
      · exact .inr ⟨more, rfl, others⟩

end Snippet

namespace TextEdit

/-- The order of queued edits, each with its position in the queue: by start, then by end, then by
position. -/
def Precedes (a b : TextEdit × Nat) : Prop :=
  a.1.span.start < b.1.span.start ∨ a.1.span.start = b.1.span.start ∧
    (a.1.span.stop < b.1.span.stop ∨ a.1.span.stop = b.1.span.stop ∧ a.2 < b.2)

/-- An edit that precedes another does not start behind it. -/
theorem Precedes.start_le_start {a b : TextEdit × Nat} (h : Precedes a b) :
    a.1.span.start ≤ b.1.span.start := by
  unfold Precedes at h
  omega

/-- Sorting by start and end keeps the order of the queue among edits with equal spans. -/
theorem precedes_of_zipIdxLE {a b : TextEdit × Nat}
    (h : List.zipIdxLE TextEdit.le a b = true) (ne : a.2 ≠ b.2) : Precedes a b := by
  unfold List.zipIdxLE at h
  unfold Precedes
  split at h
  · rename_i le
    rw [le_iff] at le
    split at h
    · have := of_decide_eq_true h
      omega
    · rename_i other
      rw [le_iff] at other
      omega
  · exact absurd h Bool.false_ne_true

end TextEdit

namespace EditQueue

open Text TextEdit

/-- A text is a source with the queued edits spliced in, snippet by snippet: all bytes of the source
that no edit covers, in their order, and all queued edits, in the order of start, end and position,
each behind exactly those bytes that lie in front of it. -/
structure Splices (q : EditQueue) (source text : String) (snippets : List Snippet) : Prop where
  bytes_eq : Text.bytes text = snippets.flatMap (Snippet.bytes (Text.bytes source))
  offsets_eq : snippets.filterMap Snippet.offset? = uncovered q.edits 0 source.utf8ByteSize
  perm : (snippets.filterMap Snippet.edit?).Perm q.edits.zipIdx
  sorted : (snippets.filterMap Snippet.edit?).Pairwise Precedes
  placed : ∀ front e n back, snippets = front ++ .inserted e n :: back →
    front.filterMap Snippet.offset?
      = uncovered q.edits 0 (min e.span.start source.utf8ByteSize)

/-- The snippets that splicing puts together behind a cursor. -/
def snippetsFrom (limit : Nat) : Nat → List (TextEdit × Nat) → List Snippet
  | cursor, [] => (List.range' cursor (limit - cursor)).map .kept
  | cursor, k :: ks =>
    let start := min (max k.1.span.start cursor) limit
    let stop := min (max k.1.span.stop start) limit
    (List.range' cursor (start - cursor)).map .kept
      ++ .inserted k.1 k.2 :: snippetsFrom limit stop ks

variable {limit cursor : Nat} {ks : List (TextEdit × Nat)}

/-- What slicing gives is written as the snippets. -/
theorem encode_of_spliceSlices? {source text : List Char}
    (h : spliceSlices? source cursor (ks.map Prod.fst) = some text) :
    encode text = (snippetsFrom (byteLength source) cursor ks).flatMap
      (Snippet.bytes (encode source)) := by
  have kept (l : List Nat) : (l.map Snippet.kept).flatMap (Snippet.bytes (encode source))
      = l.flatMap fun i => (encode source)[i]?.toList := by
    rw [List.flatMap_map]
    rfl
  induction ks generalizing cursor text with
  | nil => rw [encode_of_slice? h, snippetsFrom, kept]
  | cons k ks ih =>
    rw [List.map_cons, spliceSlices?] at h
    obtain ⟨before, hbefore, h⟩ := Option.bind_eq_some_iff.mp h
    obtain ⟨behind, hbehind, h⟩ := Option.bind_eq_some_iff.mp h
    obtain rfl := Option.some.inj h
    rw [encode_append, encode_append, encode_of_slice? hbefore, ih hbehind, snippetsFrom,
      List.flatMap_append, kept, List.flatMap_cons, Snippet.bytes, bytes_eq_encode,
      List.append_assoc]

/-- All edits are among the snippets, in their order. -/
theorem filterMap_edit?_snippetsFrom (limit cursor : Nat) (ks : List (TextEdit × Nat)) :
    (snippetsFrom limit cursor ks).filterMap Snippet.edit? = ks := by
  induction ks generalizing cursor with
  | nil => exact Snippet.filterMap_edit?_map_kept _
  | cons k ks ih =>
    rw [snippetsFrom, List.filterMap_append, Snippet.filterMap_edit?_map_kept, List.nil_append,
      List.filterMap_cons, ih]
    rfl

/-- Of edits in the order of their starts, the bytes that are kept are those that none covers. -/
theorem filterMap_offset?_snippetsFrom (le : cursor ≤ limit)
    (ordered : ks.Pairwise fun a b => a.1.span.start ≤ b.1.span.start) :
    (snippetsFrom limit cursor ks).filterMap Snippet.offset?
      = uncovered (ks.map Prod.fst) cursor limit := by
  induction ks generalizing cursor with
  | nil =>
    rw [snippetsFrom, Snippet.filterMap_offset?_map_kept, List.map_nil, uncovered_eq_range']
    exact fun _ _ _ _ he => absurd he List.not_mem_nil
  | cons k ks ih =>
    obtain ⟨first, ordered⟩ := List.pairwise_cons.mp ordered
    have first : ∀ f ∈ ks.map Prod.fst, k.1.span.start ≤ f.span.start :=
      List.forall_mem_map.mpr first
    rw [List.map_cons, uncovered_cons le first (Nat.min_le_right _ _) (Nat.le_refl _), snippetsFrom,
      List.filterMap_append, Snippet.filterMap_offset?_map_kept, List.filterMap_cons,
      ← ih (Nat.min_le_right _ _) ordered]
    rfl

/-- In front of an edit stand the bytes before its start that no edit covers. -/
theorem filterMap_offset?_front {front back : List Snippet} {e : TextEdit} {n : Nat}
    (le : cursor ≤ limit)
    (ordered : ks.Pairwise fun a b => a.1.span.start ≤ b.1.span.start)
    (split : snippetsFrom limit cursor ks = front ++ .inserted e n :: back) :
    front.filterMap Snippet.offset?
      = uncovered (ks.map Prod.fst) cursor (min (max e.span.start cursor) limit) := by
  induction ks generalizing cursor front with
  | nil =>
    have none := congrArg (List.filterMap Snippet.edit?) split
    rw [snippetsFrom, Snippet.filterMap_edit?_map_kept, List.filterMap_append] at none
    exact absurd none.symm (by simp [Snippet.edit?])
  | cons k ks ih =>
    obtain ⟨first, ordered⟩ := List.pairwise_cons.mp ordered
    have others : ∀ f ∈ ks.map Prod.fst, k.1.span.start ≤ f.span.start :=
      List.forall_mem_map.mpr first
    rw [snippetsFrom] at split
    rcases Snippet.front_of_append_eq split with ⟨rfl, rfl⟩ | ⟨more, rfl, behind⟩
    · rw [List.map_cons, uncovered_cons le others (Nat.le_refl _) (Nat.min_le_right _ _),
        uncovered_of_le _ (by omega), Snippet.filterMap_offset?_map_kept, List.append_nil]
    · have member : (e, n) ∈ ks := by
        rw [← filterMap_edit?_snippetsFrom limit _ ks, behind, List.filterMap_append]
        exact List.mem_append_right _ List.mem_cons_self
      have later : k.1.span.start ≤ e.span.start := first (e, n) member
      have rest := ih (Nat.min_le_right _ _) ordered behind
      rw [List.map_cons, uncovered_cons le others (by omega) (Nat.min_le_right _ _),
        List.filterMap_append, Snippet.filterMap_offset?_map_kept, List.filterMap_cons_none rfl,
        rest]
      congr 1
      -- an edit that starts under the span of this one has nothing more in front of it
      generalize hstop :
        min (max k.1.span.stop (min (max k.1.span.start cursor) limit)) limit = stop
      rcases Nat.le_total stop e.span.start with clear | covered
      · rw [Nat.max_eq_left clear, Nat.max_eq_left (by omega)]
      · rw [uncovered_of_le _ (by omega), uncovered_of_le _ (by omega)]

/-! ### Queues -/

/-- Edits are applied in the order of start, end and position in the queue. -/
theorem exists_positions (q : EditQueue) : ∃ ks : List (TextEdit × Nat),
    ks.map Prod.fst = q.ordered ∧ ks.Perm q.edits.zipIdx ∧ ks.Pairwise Precedes := by
  have perm := List.mergeSort_perm q.edits.zipIdx (List.zipIdxLE TextEdit.le)
  have sorted := List.pairwise_mergeSort (List.zipIdxLE_trans TextEdit.le_trans)
    (List.zipIdxLE_total TextEdit.le_total) q.edits.zipIdx
  have positions : (q.edits.zipIdx.map Prod.snd).Nodup := by
    rw [List.zipIdx_map_snd]
    exact List.nodup_range'
  have distinct : (q.edits.zipIdx.mergeSort (List.zipIdxLE TextEdit.le)).Pairwise
      fun a b => a.2 ≠ b.2 :=
    List.pairwise_map.mp ((perm.map Prod.snd).symm.nodup positions)
  refine ⟨_, List.mergeSort_zipIdx, perm, (sorted.and distinct).imp ?_⟩
  rintro a b ⟨le, ne⟩
  exact precedes_of_zipIdxLE le ne

/-- Splicing puts together the snippets between which it cuts the source. -/
theorem exists_splices {q : EditQueue} {source : String}
    (cuts : ∀ e ∈ q.edits, IsCut source.toList e.span.start ∧ IsCut source.toList e.span.stop) :
    ∃ snippets, q.Splices source (q.apply source) snippets ∧
      (snippets.filterMap Snippet.edit?).map Prod.fst = q.ordered := by
  obtain ⟨ks, edits, perm, sorted⟩ := q.exists_positions
  have starts : ks.Pairwise fun a b => a.1.span.start ≤ b.1.span.start :=
    sorted.imp Precedes.start_le_start
  have same : (ks.map Prod.fst).Perm q.edits := edits ▸ q.ordered_perm
  refine ⟨snippetsFrom source.utf8ByteSize 0 ks, ⟨?_, ?_, ?_, ?_, ?_⟩, ?_⟩
  · obtain ⟨text, sliced, whole⟩ := Option.map_eq_some_iff.mp (applySlices?_of_isCut cuts)
    rw [← edits] at sliced
    rw [← whole, bytes_ofList, encode_of_spliceSlices? sliced, byteLength_toList, bytes_eq_encode]
  · rw [filterMap_offset?_snippetsFrom (Nat.zero_le _) starts, uncovered_perm same]
  · rwa [filterMap_edit?_snippetsFrom]
  · rwa [filterMap_edit?_snippetsFrom]
  · intro front e n back split
    rw [filterMap_offset?_front (Nat.zero_le _) starts split, uncovered_perm same, Nat.max_zero]
  · rwa [filterMap_edit?_snippetsFrom]

/-! ### One edit at a time -/

/-- Behind settled text, splicing a chain of edits does what they do one at a time, from the last
one to the first one. -/
theorem foldr_apply_eq {source settled rest : List Char} {es : List TextEdit}
    (split : source = settled ++ rest)
    (hcursor : byteLength settled = cursor)
    (chain : SpanChain cursor (byteLength source) (es.map TextEdit.span))
    (ends : ∀ e ∈ es,
      isBoundary source e.span.start = true ∧ isBoundary source e.span.stop = true) :
    es.foldr (fun e text => apply ⟨[e]⟩ text) (String.ofList source)
      = String.ofList (settled ++ splice (byteLength source) cursor rest es) := by
  induction es generalizing cursor settled rest with
  | nil => rw [List.foldr_nil, splice, split]
  | cons e es ih =>
    obtain ⟨first, own, others⟩ := chain
    obtain ⟨hstart, hstop⟩ := ends e List.mem_cons_self
    obtain ⟨front, tail, cut, starts⟩ := isBoundary_iff.mp hstart
    obtain ⟨before, rfl, rfl⟩ := exists_append_of_byteLength_le (split.symm.trans cut) (by omega)
    obtain ⟨front', back, cut', stops⟩ := isBoundary_iff.mp hstop
    obtain ⟨under, rfl, rfl⟩ := exists_append_of_byteLength_le (cut.symm.trans cut') (by omega)
    have width := stops
    rw [byteLength_append, starts] at width
    have later := ih cut' stops others fun f hf => ends f (List.mem_cons_of_mem e hf)
    rw [byteLength_append, hcursor] at starts
    rw [List.foldr_cons, later, splice_cons starts width others.le,
      List.append_assoc (settled ++ before),
      apply_singleton (by rw [byteLength_append, hcursor, starts]) width, List.append_assoc]

/-- Splicing writes every byte of the source that no edit covers, and the text of every queued
edit behind the bytes that are kept in front of it, and cuts no character, if each edit starts and
ends between two characters or behind the source.  Edits may overlap.  If none overlap and all lie
in the source, it does what they do one at a time, from the last one to the first one. -/
theorem apply_interleaves (q : EditQueue) (source : String)
    (cuts : ∀ e ∈ q.edits, IsCut source.toList e.span.start ∧ IsCut source.toList e.span.stop) :
    q.applySlices? source = some (q.apply source) ∧
      ∃ snippets, q.Splices source (q.apply source) snippets ∧
        ((∀ e ∈ q.edits, e.span.start ≤ e.span.stop ∧ e.span.stop ≤ source.utf8ByteSize) →
          q.edits.Pairwise TextEdit.Apart →
            q.apply source = (snippets.filterMap Snippet.edit?).foldr
              (fun k text => apply ⟨[k.1]⟩ text) source) := by
  obtain ⟨snippets, splices, edits⟩ := exists_splices cuts
  refine ⟨applySlices?_of_isCut cuts, snippets, splices, fun inside apart => ?_⟩
  have ends : ∀ e ∈ q.ordered, isBoundary source.toList e.span.start = true ∧
      isBoundary source.toList e.span.stop = true := by
    intro e he
    have he := mem_ordered.mp he
    obtain ⟨own, last⟩ := inside e he
    rw [← byteLength_toList] at last
    exact ⟨(cuts e he).1.isBoundary_of_le (by omega), (cuts e he).2.isBoundary_of_le last⟩
  have chain := chain_ordered apart inside
  rw [← byteLength_toList] at chain
  have folded := foldr_apply_eq (List.nil_append source.toList).symm byteLength_nil chain ends
  rw [String.ofList_toList, ← edits, List.foldr_map] at folded
  rw [folded, edits, List.nil_append, apply, byteLength_toList]

/-- Two edits that overlap, an insertion at the start of one of them, and an edit behind the source.
The bytes kept are those of `g`, `r` and `e`. -/
theorem apply_interleaves_overlapping :
    let q : EditQueue :=
      ⟨[⟨⟨4, 6⟩, "s"⟩, ⟨⟨2, 6⟩, "o"⟩, ⟨⟨20, 30⟩, "r"⟩, ⟨⟨2, 2⟩, "_"⟩]⟩
    (∀ e ∈ q.edits, IsCut "größe".toList e.span.start ∧ IsCut "größe".toList e.span.stop) ∧
      q.applySlices? "größe" = some (q.apply "größe") ∧
        ∃ snippets, q.Splices "größe" (q.apply "größe") snippets ∧
          snippets.filterMap Snippet.offset? = [0, 1, 6] := by
  intro q
  have cuts : ∀ e ∈ q.edits,
      IsCut "größe".toList e.span.start ∧ IsCut "größe".toList e.span.stop := by
    decide
  obtain ⟨sliced, snippets, splices, -⟩ := q.apply_interleaves "größe" cuts
  refine ⟨cuts, sliced, snippets, splices, ?_⟩
  rw [splices.offsets_eq]
  decide

end EditQueue

end JavaRefactor
