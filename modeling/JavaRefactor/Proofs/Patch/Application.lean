import JavaRefactor.Patch.Basic
import JavaRefactor.Proofs.Edit.Interleaving

/-!
# Applying a patch to any text

A patch may hold any edits: reversed, behind the text, or in the middle of a character.  It is
applied in place step by step, and the new text is written after everything that can fail
(`Patch.rewrite?`).  Whatever the text and the edits are, this ends, and splicing cuts no character:
edits that would are refused before (`Patch.rewrite?_eq`).  The patch is applied exactly if the text
has the expected length, all edits start and end between characters and no two of them overlap,
and otherwise the text stays as it is (`Patch.rewrite?_atomic`).
-/

namespace JavaRefactor

/-- Edits that begin and end between characters are spliced without cutting one. -/
theorem EditQueue.applySlices?_eq {q : EditQueue} {source : String}
    (fit : ∀ e ∈ q.edits, Patch.fits source.toList e = true) :
    q.applySlices? source = some (q.apply source) := by
  refine applySlices?_of_isCut fun e he => ?_
  have own := fit e he
  rw [Patch.fits, Bool.and_eq_true] at own
  exact ⟨.inl own.1, .inl own.2⟩

namespace Patch

open EditQueue Text

variable {p : Patch} {content : String}

/-- An edit fits a text if it begins and ends between characters. -/
theorem fits_iff {cs : List Char} {e : TextEdit} : fits cs e = true ↔
    isBoundary cs e.span.start = true ∧ isBoundary cs e.span.stop = true := by
  rw [fits, Bool.and_eq_true]

/-- An edit that splits a character is found, unless there is none. -/
theorem find?_fits_eq_none_iff {cs : List Char} {es : List TextEdit} :
    (es.find? fun e => !fits cs e) = none ↔ ∀ e ∈ es, fits cs e = true := by
  simp [List.find?_eq_none]

/-- A patch for a text of this length whose edits begin and end between characters fails only with
a conflict of its edits. -/
theorem apply_of_fits {p : Patch} {content : String}
    (length : content.utf8ByteSize = p.baseLength)
    (fit : ∀ e ∈ p.changes.edits, fits content.toList e = true) :
    p.apply content = (p.changes.applyChecked content).mapError (PatchError.conflict p.path) := by
  rw [apply, if_neg (not_not_intro length), find?_fits_eq_none_iff.mpr fit]
  cases p.changes.applyChecked content <;> rfl

/-- A patch gives a text exactly if the text that it is applied to has the expected length, its
edits begin and end between characters, and no two of them are in conflict. -/
theorem apply_eq_ok_iff {text : String} : p.apply content = .ok text ↔
    content.utf8ByteSize = p.baseLength ∧
      (∀ e ∈ p.changes.edits, fits content.toList e = true) ∧
        p.changes.conflict? = none ∧ p.changes.apply content = text := by
  by_cases length : content.utf8ByteSize = p.baseLength
  · cases found : p.changes.edits.find? fun e => !fits content.toList e with
    | some e =>
      have unfit : ¬ ∀ e ∈ p.changes.edits, fits content.toList e = true := by
        rw [← find?_fits_eq_none_iff, found]
        exact Option.some_ne_none e
      rw [apply, if_neg (not_not_intro length), found]
      simp [unfit]
    | none =>
      have fit := find?_fits_eq_none_iff.mp found
      rw [apply_of_fits length fit, applyChecked]
      cases p.changes.conflict? with
      | some c => simp [Except.mapError]
      | none => simpa [Except.mapError, length] using fun _ => fit
  · rw [apply, if_pos length]
    simp [length]

/-! ### In place -/

/-- In place a patch writes what it gives for a text, and writes nothing if it gives nothing. -/
theorem rewrite?_eq (p : Patch) (content : String) : p.rewrite?.run content = some
    (match p.apply content with
    | .ok text => (.ok (), text)
    | .error e => (.error e, content)) := by
  rw [rewrite?, apply, StateT.run_bind, StateT.run_get]
  by_cases length : content.utf8ByteSize = p.baseLength
  · cases found : p.changes.edits.find? fun e => !fits content.toList e with
    | some e =>
      simp [length, found]
    | none =>
      have sliced := applySlices?_eq (find?_fits_eq_none_iff.mp found)
      cases compatible : p.changes.conflict? with
      | some c => simp [length, found, compatible, applyChecked]
      | none => simp [length, found, compatible, applyChecked, sliced]
  · simp [length]

/-- Whatever its edits are, a patch applied to a text in place ends, and splicing cuts no character.
It succeeds exactly if the text has the expected length, all edits start and end between two
characters, and no two overlap, where an edit with a reversed span counts as an insertion at its
start.  Then the new text is the old one with the edits spliced in.  Otherwise the text stays as it
is.  The outcome is the one of `Patch.apply`. -/
theorem rewrite?_atomic (p : Patch) (content : String) :
    ∃ result after, p.rewrite?.run content = some (result, after) ∧
      (result = .ok () ↔ content.utf8ByteSize = p.baseLength ∧
        (∀ e ∈ p.changes.edits, isBoundary content.toList e.span.start = true ∧
          isBoundary content.toList e.span.stop = true) ∧
        (p.changes.edits.map TextEdit.upright).Pairwise TextEdit.Apart) ∧
      (result = .ok () → after = p.changes.apply content ∧
        ∃ snippets, p.changes.Splices content after snippets) ∧
      (∀ e, result = .error e → after = content) ∧
      p.apply content = result.map fun _ => after := by
  have compatible : p.changes.conflict? = none ↔
      (p.changes.edits.map TextEdit.upright).Pairwise TextEdit.Apart := by
    rw [List.pairwise_map, p.changes.conflict?_eq_none_iff]
  have ended := p.rewrite?_eq content
  cases applied : p.apply content with
  | ok text =>
    rw [applied] at ended
    obtain ⟨length, fit, none, rfl⟩ := apply_eq_ok_iff.mp applied
    have ends := fun e he => fits_iff.mp (fit e he)
    obtain ⟨snippets, splices, -⟩ :=
      exists_splices fun e he => ⟨.inl (ends e he).1, .inl (ends e he).2⟩
    refine ⟨.ok (), _, ended, ?_, fun _ => ⟨rfl, snippets, splices⟩, nofun, rfl⟩
    exact iff_of_true rfl ⟨length, ends, compatible.mp none⟩
  | error e =>
    rw [applied] at ended
    refine ⟨.error e, content, ended, iff_of_false nofun ?_, nofun, fun _ _ => rfl, rfl⟩
    rintro ⟨length, ends, apart⟩
    have success := apply_eq_ok_iff.mpr
      ⟨length, fun e he => fits_iff.mpr (ends e he), compatible.mpr apart, rfl⟩
    rw [applied] at success
    exact nomatch success

end Patch

end JavaRefactor
