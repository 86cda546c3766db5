import JavaRefactor.Patch.Run
import Mathlib.Data.List.Infix

/-!
# Patches of a file tree

A tree is read and written by paths, which are followed step by step.  Writing a file makes and
removes no directory (`FileTree.isDirectory_put`), so every path goes on leading where it led.  A
path to the file that was written then gives the new text, and any other path what it gave before
(`FileTree.read_write`).  A run in place changes no file but those that its patches lead to
(`FileTree.read_run_of_ne`), and each of its patches acts on its own file as if it were alone, if no
other one leads to the same file (`FileTree.read_run`).
-/

namespace JavaRefactor

namespace FileTree

variable {t t' : FileTree} {names dir found : List String} {path other content : String}

/-! ### Directories -/

/-- What makes some names lead to a directory. -/
theorem isDirectory_iff : t.isDirectory names = true ↔
    isAbove names = true ∨ (∃ d ∈ t.directories, names <+: d) ∨
      ∃ entry ∈ t.files, names <+: entry.1 ∧ names ≠ entry.1 := by
  simp [isDirectory, or_assoc]

/-- The names on the way to a directory lead to directories. -/
theorem isDirectory_of_prefix (way : dir <+: names) (h : t.isDirectory names = true) :
    t.isDirectory dir = true := by
  rw [isDirectory_iff] at h ⊢
  rcases h with above | ⟨d, hd, on⟩ | ⟨entry, hentry, on, proper⟩
  · exact .inl (List.all_eq_true.mpr fun s hs => List.all_eq_true.mp above s (way.subset hs))
  · exact .inr (.inl ⟨d, hd, way.trans on⟩)
  · refine .inr (.inr ⟨entry, hentry, way.trans on, ?_⟩)
    rintro rfl
    exact proper (on.eq_of_length_le way.length_le)

/-- The names on the way to others that lead below the tree lead to the directory of those. -/
theorem prefix_parent (below : isAbove names = false) (way : dir <+: names) (proper : dir ≠ names) :
    dir <+: parent names := by
  rw [parent, if_neg (Bool.eq_false_iff.mp below)]
  rcases List.eq_nil_or_concat names with rfl | ⟨front, last, rfl⟩
  · exact absurd (List.prefix_nil.mp way) proper
  · rw [List.concat_eq_append] at way proper ⊢
    rw [List.dropLast_concat]
    exact (List.prefix_concat_iff.mp way).resolve_left proper

/-- A file that is put into a directory makes and removes no directories. -/
theorem isDirectory_put (free : t.isDirectory names = false)
    (held : t.isDirectory (parent names) = true) (content : FileContent) (dir : List String) :
    (t.put names content).isDirectory dir = t.isDirectory dir := by
  have below : isAbove names = false := by
    rw [← Bool.not_eq_true] at free ⊢
    exact fun above => free (isDirectory_iff.mpr (.inl above))
  rw [Bool.eq_iff_iff]
  constructor
  · intro h
    rcases isDirectory_iff.mp h with above | listed | ⟨entry, hentry, on, proper⟩
    · exact isDirectory_iff.mpr (.inl above)
    · exact isDirectory_iff.mpr (.inr (.inl listed))
    · rcases List.mem_cons.mp hentry with rfl | old
      · exact isDirectory_of_prefix (prefix_parent below on proper) held
      · exact isDirectory_iff.mpr (.inr (.inr ⟨entry, List.mem_of_mem_filter old, on, proper⟩))
  · intro h
    rcases isDirectory_iff.mp h with above | listed | ⟨entry, hentry, on, proper⟩
    · exact isDirectory_iff.mpr (.inl above)
    · exact isDirectory_iff.mpr (.inr (.inl listed))
    · refine isDirectory_iff.mpr (.inr (.inr ?_))
      by_cases same : entry.1 = names
      · exact ⟨(names, content), List.mem_cons_self, same ▸ on, same ▸ proper⟩
      · have kept : entry ∈ t.files.filter (·.1 != names) :=
          List.mem_filter.mpr ⟨hentry, bne_iff_ne.mpr same⟩
        exact ⟨entry, List.mem_cons_of_mem _ kept, on, proper⟩

/-! ### Paths -/

/-- In trees with the same directories, steps lead to the same names, if they lead anywhere. -/
theorem follow_eq_ok_iff (same : ∀ dir, t'.isDirectory dir = t.isDirectory dir)
    (names steps : List String) :
    t'.follow path names steps = .ok found ↔ t.follow path names steps = .ok found := by
  induction steps generalizing names with
  | nil => rw [follow, follow]
  | cons step steps ih =>
    rw [follow, follow, same]
    split
    · split <;> split <;> simp
    · split
      · rfl
      · split
        · exact ih _
        · split <;> exact ih _

/-- In trees with the same directories, a path leads to the same names, if it leads anywhere. -/
theorem resolve_eq_ok_iff (same : ∀ dir, t'.isDirectory dir = t.isDirectory dir) :
    t'.resolve path = .ok found ↔ t.resolve path = .ok found := by
  rw [resolve, resolve]
  split
  · rfl
  · exact follow_eq_ok_iff same _ _

/-! ### Reading and writing -/

/-- What is read depends on the file and on the directory under the names that the path leads to. -/
theorem read_of_resolve (resolved : t.resolve path = .ok names) : t.read path =
    match t.files.lookup names with
    | some (.text content) => .ok content
    | some .binary => .error (.inaccessible path)
    | none => .error (if t.isDirectory names then .inaccessible path else .notFound path) := by
  rw [read, resolved]
  rfl

/-- A text is written under the names that the path leads to, in a directory and over none. -/
theorem write_eq_ok_iff : t.write path content = .ok t' ↔ ∃ names, t.resolve path = .ok names ∧
    t.isDirectory names = false ∧ t.isDirectory (parent names) = true ∧
      t.put names (.text content) = t' := by
  rw [write]
  cases t.resolve path with
  | error e => exact ⟨nofun, nofun⟩
  | ok names =>
    simp only [Except.ok.injEq, exists_eq_left']
    show (if t.isDirectory names = true then .error (PatchError.inaccessible path)
      else if (!t.isDirectory (parent names)) = true then .error (PatchError.notFound path)
      else .ok (t.put names (.text content))) = Except.ok t' ↔ _
    cases t.isDirectory names <;> cases t.isDirectory (parent names) <;> simp

/-- Writing a file makes and removes no directory. -/
theorem isDirectory_of_write (written : t.write path content = .ok t') (dir : List String) :
    t'.isDirectory dir = t.isDirectory dir := by
  obtain ⟨names, -, free, held, rfl⟩ := write_eq_ok_iff.mp written
  exact isDirectory_put free held _ dir

/-- A path gives the text that was written if it leads to the file that was written, and else what
it gave before, as far as it leads anywhere. -/
theorem read_write (written : t.write path content = .ok t') (other : String) :
    (t.resolve other = t.resolve path → t'.read other = .ok content) ∧
      (∀ found, t.resolve other = .ok found → t.resolve path ≠ .ok found →
        t'.read other = t.read other) := by
  have same := isDirectory_of_write written
  obtain ⟨names, resolved, -, -, rfl⟩ := write_eq_ok_iff.mp written
  have file (found : List String) := lookup_replaced t.files names (.text content) found
  refine ⟨fun there => ?_, fun found elsewhere ne => ?_⟩
  · have kept := (resolve_eq_ok_iff same).mpr (there.trans resolved)
    rw [read_of_resolve kept, put, file, if_pos rfl]
  · have kept := (resolve_eq_ok_iff same).mpr elsewhere
    have apart : found ≠ names := fun h => ne (h ▸ resolved)
    rw [read_of_resolve kept, read_of_resolve elsewhere, put, file, if_neg apart, ← put, same]

/-! ### Runs in place -/

/-- No directory has changed, nor the file under some names. -/
structure KeepsAt (names : List String) (t t' : FileTree) : Prop where
  directories : ∀ dir, t'.isDirectory dir = t.isDirectory dir
  file : t'.files.lookup names = t.files.lookup names

/-- A tree that does not change keeps everything. -/
theorem KeepsAt.refl (names : List String) (t : FileTree) : KeepsAt names t t := ⟨fun _ => rfl, rfl⟩

/-- What is kept twice is kept. -/
theorem KeepsAt.trans {t₁ t₂ t₃ : FileTree} (h : KeepsAt names t₁ t₂) (h' : KeepsAt names t₂ t₃) :
    KeepsAt names t₁ t₃ :=
  ⟨fun dir => (h'.directories dir).trans (h.directories dir), h'.file.trans h.file⟩

/-- Paths to a file that is kept lead there as before. -/
theorem KeepsAt.resolve_iff (h : KeepsAt names t t') :
    t'.resolve path = .ok found ↔ t.resolve path = .ok found :=
  resolve_eq_ok_iff h.directories

/-- A file that is kept is read as before. -/
theorem KeepsAt.read_eq (h : KeepsAt names t t') (resolved : t.resolve path = .ok names) :
    t'.read path = t.read path := by
  rw [read_of_resolve (h.resolve_iff.mpr resolved), read_of_resolve resolved, h.file, h.directories]

/-- Writing another file keeps a file. -/
theorem keepsAt_of_write (written : t.write path content = .ok t')
    (elsewhere : t.resolve path ≠ .ok names) : KeepsAt names t t' := by
  refine ⟨isDirectory_of_write written, ?_⟩
  obtain ⟨target, resolved, -, -, rfl⟩ := write_eq_ok_iff.mp written
  rw [put, lookup_replaced, if_neg]
  rintro rfl
  exact elsewhere resolved

variable {p : Patch}

/-- A patch is applied in a tree by reading its file, applying it, and writing the file. -/
theorem applyPatch_eq_ok_iff : access.applyPatch p t = .ok t' ↔ ∃ content text,
    t.read p.path = .ok content ∧ p.apply content = .ok text ∧ t.write p.path text = .ok t' := by
  rw [FileAccess.applyPatch]
  cases opened : t.read p.path with
  | error e => simp [access, opened, bind, Except.bind]
  | ok content =>
    cases applied : p.apply content with
    | error e => simp [access, opened, applied, bind, Except.bind]
    | ok text => simp [access, opened, applied, bind, Except.bind]

/-- The patches of a run leave alone the files that none of them leads to. -/
theorem keepsAt_applyEach (keepGoing : Bool) {patches : List Patch}
    (elsewhere : ∀ p ∈ patches, t.resolve p.path ≠ .ok names) :
    KeepsAt names t (access.applyEach keepGoing patches t).2 := by
  induction patches generalizing t with
  | nil => exact .refl names t
  | cons p ps ih =>
    obtain ⟨here, others⟩ := List.forall_mem_cons.mp elsewhere
    rw [FileAccess.applyEach]
    cases applied : access.applyPatch p t with
    | ok t' =>
      obtain ⟨_, _, -, -, written⟩ := applyPatch_eq_ok_iff.mp applied
      have kept := keepsAt_of_write written here
      exact kept.trans (ih fun q hq => fun there => others q hq (kept.resolve_iff.mp there))
    | error e =>
      cases keepGoing with
      | true => exact ih others
      | false => exact .refl names t

/-- A run leaves the tree that its patches leave, as there is nothing to flush. -/
theorem run_snd (keepGoing : Bool) (patches : List Patch) (t : FileTree) :
    (access.run keepGoing patches t).2 = (access.applyEach keepGoing patches t).2 := by
  rw [FileAccess.run]
  split
  · rename_i ran
    rw [ran]
    rfl
  · rename_i ran
    rw [ran]

/-- A run in place changes no file but those that its patches lead to. -/
theorem read_run_of_ne (keepGoing : Bool) {patches : List Patch}
    (elsewhere : ∀ p ∈ patches, t.resolve p.path ≠ .ok names)
    (resolved : t.resolve path = .ok names) :
    (access.run keepGoing patches t).2.read path = t.read path := by
  rw [run_snd]
  exact (keepsAt_applyEach keepGoing elsewhere).read_eq resolved

/-- A run that keeps going and comes to a patch has done with those in front of it. -/
theorem applyEach_append (front back : List Patch) (t : FileTree) :
    (access.applyEach true (front ++ back) t).2 =
      (access.applyEach true back (access.applyEach true front t).2).2 := by
  induction front generalizing t with
  | nil => rfl
  | cons p ps ih =>
    rw [List.cons_append, FileAccess.applyEach, FileAccess.applyEach]
    cases access.applyPatch p t with
    | ok t' => exact ih t'
    | error e => exact ih t

/-- A patch of a run that keeps going acts on its file as if it were alone, if no other patch of the
run leads to the same file. -/
theorem read_run (front back : List Patch) {content text : String}
    (others : ∀ q ∈ front ++ back, t.resolve q.path ≠ t.resolve p.path)
    (opened : t.read p.path = .ok content) (applied : p.apply content = .ok text)
    (written : t.write p.path text = .ok t') :
    (access.run true (front ++ p :: back) t).2.read p.path = .ok text := by
  obtain ⟨names, resolved, free, held, -⟩ := write_eq_ok_iff.mp written
  have apart : ∀ q ∈ front ++ back, t.resolve q.path ≠ .ok names := resolved ▸ others
  obtain ⟨apart, apart'⟩ := List.forall_mem_append.mp apart
  -- the patches in front leave the file as it was
  have kept := keepsAt_applyEach true apart
  rw [run_snd, applyEach_append]
  generalize (access.applyEach true front t).2 = before at kept
  have opened' : before.read p.path = .ok content := (kept.read_eq resolved).trans opened
  have written' : before.write p.path text = .ok (before.put names (.text text)) := by
    refine write_eq_ok_iff.mpr ⟨names, kept.resolve_iff.mpr resolved, ?_, ?_, rfl⟩
    · rw [kept.directories, free]
    · rw [kept.directories, held]
  rw [FileAccess.applyEach, applyPatch_eq_ok_iff.mpr ⟨content, text, opened', applied, written'⟩]
  generalize before.put names (.text text) = changed at written'
  -- and so do those behind it
  have same (path : String) (found : List String) :
      changed.resolve path = .ok found ↔ t.resolve path = .ok found :=
    (resolve_eq_ok_iff (isDirectory_of_write written')).trans kept.resolve_iff
  have kept' := keepsAt_applyEach true fun q hq there => apart' q hq ((same q.path names).mp there)
  exact (kept'.read_eq ((same p.path names).mpr resolved)).trans
    ((read_write written' p.path).1 rfl)

end FileTree

end JavaRefactor
