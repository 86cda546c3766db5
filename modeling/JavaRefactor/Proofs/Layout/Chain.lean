import JavaRefactor.Span
import Mathlib.Data.List.Basic

/-!
# Chains of spans

A chain of spans goes through a text from left to right: each span starts where the one
before it ends, or later, and all of them lie between two offsets.  Chains that follow each
other join to one.
-/

namespace JavaRefactor

/-- Spans between two offsets, one after the other. -/
def SpanChain (start stop : Nat) : List Span → Prop
  | [] => start ≤ stop
  | s :: ss => start ≤ s.start ∧ s.start ≤ s.stop ∧ SpanChain s.stop stop ss

namespace SpanChain

variable {start stop : Nat} {ss ts : List Span}

/-- A chain of spans ends no earlier than it starts. -/
theorem le (h : SpanChain start stop ss) : start ≤ stop := by
  induction ss generalizing start with
  | nil => exact h
  | cons s ss ih =>
    obtain ⟨first, own, rest⟩ := h
    have := ih rest
    omega

/-- A chain that starts later is one that starts earlier. -/
theorem mono_start {start' : Nat} (h : SpanChain start stop ss) (le : start' ≤ start) :
    SpanChain start' stop ss := by
  cases ss with
  | nil => exact Nat.le_trans le h
  | cons s ss => exact ⟨Nat.le_trans le h.1, h.2⟩

/-- A chain that stops earlier is one that stops later. -/
theorem mono_stop {stop' : Nat} (h : SpanChain start stop ss) (le : stop ≤ stop') :
    SpanChain start stop' ss := by
  induction ss generalizing start with
  | nil => exact Nat.le_trans h le
  | cons s ss ih => exact ⟨h.1, h.2.1, ih h.2.2⟩

/-- Two chains that follow each other are one. -/
theorem append {mid : Nat} (h : SpanChain start mid ss) (h' : SpanChain mid stop ts) :
    SpanChain start stop (ss ++ ts) := by
  induction ss generalizing start with
  | nil => exact h'.mono_start h
  | cons s ss ih => exact ⟨h.1, h.2.1, ih h.2.2⟩

/-- A span of a chain lies between its ends. -/
theorem bounds_of_mem (h : SpanChain start stop ss) {s : Span} (hs : s ∈ ss) :
    start ≤ s.start ∧ s.start ≤ s.stop ∧ s.stop ≤ stop := by
  induction ss generalizing start with
  | nil => exact absurd hs List.not_mem_nil
  | cons t ss ih =>
    obtain ⟨first, own, rest⟩ := h
    rcases List.mem_cons.mp hs with rfl | hs
    · exact ⟨first, own, rest.le⟩
    · obtain ⟨later, ordered, last⟩ := ih rest hs
      exact ⟨by omega, ordered, last⟩

/-- Some of the spans of a chain are a chain. -/
theorem sublist (h : SpanChain start stop ss) (sub : ts.Sublist ss) : SpanChain start stop ts := by
  induction sub generalizing start with
  | slnil => exact h
  | cons s _ ih => exact (ih h.2.2).mono_start (Nat.le_trans h.1 h.2.1)
  | cons_cons s _ ih => exact ⟨h.1, h.2.1, ih h.2.2⟩

/-- Spans that come one after the other are a chain between any offsets around them. -/
theorem of_pairwise (ordered : ss.Pairwise fun a b => a.stop ≤ b.start)
    (own : ∀ s ∈ ss, start ≤ s.start ∧ s.start ≤ s.stop ∧ s.stop ≤ stop) (le : start ≤ stop) :
    SpanChain start stop ss := by
  induction ss generalizing start with
  | nil => exact le
  | cons s ss ih =>
    obtain ⟨later, ordered⟩ := List.pairwise_cons.mp ordered
    obtain ⟨first, forward, last⟩ := own s List.mem_cons_self
    refine ⟨first, forward, ih ordered (fun t ht => ?_) last⟩
    exact ⟨later t ht, (own t (List.mem_cons_of_mem s ht)).2⟩

/-- The spans of a chain come one after the other. -/
theorem pairwise (h : SpanChain start stop ss) : ss.Pairwise fun a b => a.stop ≤ b.start := by
  induction ss generalizing start with
  | nil => exact .nil
  | cons s ss ih => exact .cons (fun t ht => (h.2.2.bounds_of_mem ht).1) (ih h.2.2)

end SpanChain

end JavaRefactor
