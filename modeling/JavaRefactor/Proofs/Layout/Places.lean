import JavaRefactor.Layout.Expr
import JavaRefactor.Proofs.Layout.Slices

/-!
# The places of nodes in a layout

The nodes at the top of a sequence of layouts are its subnodes.  `Layout.places` lists them
with the offsets at which they start: they stand in the text one after the other
(`pairwise_places`, `mem_places`), and the spans recorded for the sequence are those recorded
for them (`nodeSpansOf_eq`).
-/

namespace JavaRefactor

namespace Layout

/-- The text of one layout is its text. -/
theorem textOf_singleton (l : Layout) : textOf [l] = l.toText := by
  rw [textOf, textOf, String.append_empty]

/-- The first layout takes its width in the text of several. -/
theorem utf8ByteSize_textOf_cons (l : Layout) (ls : List Layout) :
    (textOf (l :: ls)).utf8ByteSize = l.width + (textOf ls).utf8ByteSize := by
  rw [textOf, String.utf8ByteSize_append, width]

/-- Whether a layout is that of a syntax node. -/
def isNode : Layout → Bool
  | node _ => true
  | _ => false

/-- The nodes at the top of some layouts. -/
def subnodes (ls : List Layout) : List Layout := ls.filter isNode

/-- The nodes at the top of some layouts, each with the offset at which it starts when the
first layout starts at a given one. -/
def places (start : Nat) : List Layout → List (Nat × Layout)
  | [] => []
  | l :: ls => (if l.isNode then [(start, l)] else []) ++ places (start + l.width) ls

@[simp] theorem subnodes_nil : subnodes [] = [] := rfl

@[simp] theorem subnodes_text (s : String) (ls : List Layout) :
    subnodes (text s :: ls) = subnodes ls := rfl

@[simp] theorem subnodes_comment (s : String) (ls : List Layout) :
    subnodes (comment s :: ls) = subnodes ls := rfl

@[simp] theorem subnodes_node (parts ls : List Layout) :
    subnodes (node parts :: ls) = node parts :: subnodes ls := rfl

/-- The nodes among layouts side by side are those of both. -/
@[simp] theorem subnodes_append (as bs : List Layout) :
    subnodes (as ++ bs) = subnodes as ++ subnodes bs :=
  List.filter_append ..

/-- A layout that is a node is the first of those that start with it. -/
theorem subnodes_cons_of_isNode {l : Layout} (h : l.isNode = true) (ls : List Layout) :
    subnodes (l :: ls) = l :: subnodes ls :=
  List.filter_cons_of_pos h

/-- Separators are no nodes. -/
@[simp] theorem subnodes_separated (separator : String) (groups : List (List Layout)) :
    subnodes (separated separator groups) = groups.flatMap subnodes := by
  induction groups with
  | nil => rfl
  | cons group groups ih =>
    cases groups with
    | nil => rw [separated, List.flatMap_cons, List.flatMap_nil, List.append_nil]
    | cons next groups =>
      have split : separated separator (group :: next :: groups)
          = group ++ text separator :: separated separator (next :: groups) := rfl
      rw [split, subnodes_append, subnodes_text, ih]
      simp only [List.flatMap_cons]

/-- The nodes between two delimiters are those that stand there. -/
@[simp] theorem subnodes_within (opening closing : String) (inner : List Layout) :
    subnodes (within opening closing inner) = subnodes inner := by
  rw [within, List.cons_append, subnodes_text, subnodes_append, subnodes_text, subnodes_nil,
    List.append_nil]

/-! ### Places -/

/-- Layouts side by side have the places of both, the second ones behind the text of the first. -/
theorem places_append (start : Nat) (as bs : List Layout) :
    places start (as ++ bs)
      = places start as ++ places (start + (textOf as).utf8ByteSize) bs := by
  induction as generalizing start with
  | nil => simp [places, textOf]
  | cons a as ih => simp [places, textOf, ih, width, Nat.add_assoc]

/-- The places are those of the subnodes. -/
theorem map_snd_places (start : Nat) (ls : List Layout) :
    (places start ls).map Prod.snd = subnodes ls := by
  induction ls generalizing start with
  | nil => rfl
  | cons l ls ih =>
    rw [places, List.map_append, ih]
    cases l <;> rfl

/-- What stands before and after the node at a place. -/
theorem mem_places {start : Nat} {ls : List Layout} {p : Nat × Layout}
    (h : p ∈ places start ls) :
    ∃ before after, ls = before ++ p.2 :: after ∧
      p.1 = start + (textOf before).utf8ByteSize := by
  induction ls generalizing start with
  | nil => exact absurd h List.not_mem_nil
  | cons l ls ih =>
    rcases List.mem_append.mp h with h | h
    · split at h
      · obtain rfl := List.mem_singleton.mp h
        exact ⟨[], ls, rfl, rfl⟩
      · exact absurd h List.not_mem_nil
    · obtain ⟨before, after, rfl, offset⟩ := ih h
      refine ⟨l :: before, after, rfl, ?_⟩
      rw [offset, textOf, String.utf8ByteSize_append, width, Nat.add_assoc]

/-- No place is in front of the start. -/
theorem le_of_mem_places {start : Nat} {ls : List Layout} {p : Nat × Layout}
    (h : p ∈ places start ls) : start ≤ p.1 := by
  obtain ⟨before, after, -, offset⟩ := mem_places h
  omega

/-- A node ends within the layouts that it belongs to. -/
theorem stop_le_of_mem_places {start : Nat} {ls : List Layout} {p : Nat × Layout}
    (h : p ∈ places start ls) : p.1 + p.2.width ≤ start + (textOf ls).utf8ByteSize := by
  obtain ⟨before, after, rfl, offset⟩ := mem_places h
  rw [textOf_append, textOf, String.utf8ByteSize_append, String.utf8ByteSize_append, width]
  omega

/-- Nodes stand one after the other. -/
theorem pairwise_places (start : Nat) (ls : List Layout) :
    (places start ls).Pairwise fun p q => p.1 + p.2.width ≤ q.1 := by
  induction ls generalizing start with
  | nil => exact .nil
  | cons l ls ih =>
    rw [places]
    split
    · exact .cons (fun q hq => le_of_mem_places hq) (ih _)
    · exact ih _

/-- The spans recorded for some layouts are those recorded for their subnodes. -/
theorem nodeSpansOf_eq (start : Nat) (ls : List Layout) :
    nodeSpansOf start ls = (places start ls).flatMap fun p => nodeSpans p.1 p.2 := by
  induction ls generalizing start with
  | nil => rfl
  | cons l ls ih =>
    rw [nodeSpansOf, places, List.flatMap_append, ih]
    cases l with
    | node parts => exact congrArg (· ++ _) (List.append_nil _).symm
    | _ => rfl

end Layout

/-- A part of a text at an offset is at its place. -/
theorem TextAt.place {source : String} {start : Nat} {ls : List Layout}
    (h : TextAt source start (Layout.textOf ls)) {p : Nat × Layout}
    (hp : p ∈ Layout.places start ls) : TextAt source p.1 p.2.toText := by
  obtain ⟨before, after, rfl, offset⟩ := Layout.mem_places hp
  rw [offset]
  refine h.inner (Layout.textOf before) (Layout.textOf after) ?_
  rw [Layout.textOf_append, Layout.textOf, String.append_assoc]

end JavaRefactor
