import JavaRefactor.Tree.Rebuild
import Mathlib.Data.List.Basic

/-!
# The parts of a rebuilt statement

A statement mixes expressions and statements among its parts, and is rebuilt from the two
lists apart.  The kinds of the parts say how the lists interleave, so a statement that is
rebuilt from parts of the kinds of its own has exactly these parts
(`Stmt.children_withParts`).  A node that is rebuilt from its own parts is the node itself.
-/

namespace JavaRefactor

namespace StmtPart

/-- Whether a part is an expression. -/
def isExpr : StmtPart → Bool
  | expr _ => true
  | stmt _ => false

/-- Parts are determined by their kinds, their expressions and their statements. -/
theorem eq_of_isExpr {ps qs : List StmtPart} (kinds : ps.map isExpr = qs.map isExpr)
    (hes : exprs ps = exprs qs) (hss : stmts ps = stmts qs) : ps = qs := by
  induction ps generalizing qs with
  | nil =>
    rw [List.map_nil] at kinds
    exact (List.map_eq_nil_iff.mp kinds.symm).symm
  | cons p ps ih =>
    cases qs with
    | nil => exact absurd kinds (by simp)
    | cons q qs =>
      obtain ⟨kind, rest⟩ := List.cons_eq_cons.mp kinds
      cases p with
      | expr e =>
        cases q with
        | stmt t => exact absurd kind (by simp [isExpr])
        | expr f =>
          obtain ⟨rfl, others⟩ := List.cons_eq_cons.mp hes
          rw [ih rest others hss]
      | stmt s =>
        cases q with
        | expr f => exact absurd kind (by simp [isExpr])
        | stmt t =>
          obtain ⟨rfl, others⟩ := List.cons_eq_cons.mp hss
          rw [ih rest hes others]

/-- Parts of the same kinds have as many expressions and as many statements. -/
theorem length_eq_of_isExpr {ps qs : List StmtPart} (kinds : ps.map isExpr = qs.map isExpr) :
    (exprs ps).length = (exprs qs).length ∧ (stmts ps).length = (stmts qs).length := by
  have counts (parts : List StmtPart) :
      (exprs parts).length = (parts.map isExpr).count true ∧
        (stmts parts).length = (parts.map isExpr).count false := by
    induction parts with
    | nil => exact ⟨rfl, rfl⟩
    | cons p parts ih =>
      cases p with
      | expr e => simp [isExpr, ih.1, ih.2]
      | stmt s => simp [isExpr, ih.1, ih.2]
  rw [(counts ps).1, (counts ps).2, kinds, (counts qs).1, (counts qs).2]
  exact ⟨rfl, rfl⟩

end StmtPart

/-- An expression that is rebuilt from its own children stays the same. -/
theorem Expr.withChildren_children (e : Expr) : e.withChildren e.children = e := by
  cases e with
  | newArray i element dims init => cases element <;> cases init <;> simp [children, withChildren]
  | _ => rfl

/-- A declaration keeps its own expressions. -/
theorem VarDecl.withChildren_children (d : VarDecl) : d.withChildren d.children = d := by
  obtain ⟨name, type, init, symbol, isFinal⟩ := d
  cases init <;> rfl

/-- The expressions of a declaration are those that were put there. -/
theorem VarDecl.children_withChildren {d : VarDecl} {cs : List Expr}
    (h : cs.length = d.children.length) : (d.withChildren cs).children = cs := by
  obtain ⟨name, type, init, symbol, isFinal⟩ := d
  cases init with
  | none =>
    obtain ⟨t, rfl⟩ := List.length_eq_one_iff.mp h
    rfl
  | some init =>
    obtain ⟨t, i, rfl⟩ := List.length_eq_two.mp h
    rfl

/-- A list that is not empty has a last element. -/
theorem exists_concat_of_length {α : Type} {as : List α} {n : Nat} (h : as.length = n + 1) :
    ∃ bs b, as = bs ++ [b] ∧ bs.length = n := by
  rcases List.eq_nil_or_concat as with rfl | ⟨bs, b, rfl⟩
  · exact absurd h (by simp)
  · exact ⟨bs, b, List.concat_eq_append, by simpa using h⟩

namespace Stmt

/-- A rebuilt statement has the parts that it was given, in the places of the old ones. -/
theorem parts_withParts {s : Stmt} {es : List Expr} {ss : List Stmt}
    (hes : es.length = (StmtPart.exprs s.children).length)
    (hss : ss.length = (StmtPart.stmts s.children).length) :
    (s.withParts es ss).children.map StmtPart.isExpr = s.children.map StmtPart.isExpr ∧
      StmtPart.exprs (s.withParts es ss).children = es ∧
      StmtPart.stmts (s.withParts es ss).children = ss := by
  -- The lengths say what the lists look like, so that rebuilding computes; only where a form has
  -- lists of parts, the lists have to be taken apart at the length of the first.
  cases s with
  | block i stmts =>
    rw [children, StmtPart.exprs_map_stmt] at hes
    rw [children, StmtPart.stmts_map_stmt] at hss
    obtain rfl := List.eq_nil_of_length_eq_zero hes
    refine ⟨?_, ?_, ?_⟩
    · simp [withParts, children, Function.comp_def, StmtPart.isExpr, hss]
    · simp [withParts, children]
    · simp [withParts, children]
  | empty i =>
    obtain rfl := List.eq_nil_of_length_eq_zero hes
    obtain rfl := List.eq_nil_of_length_eq_zero hss
    exact ⟨rfl, rfl, rfl⟩
  | raise | expr =>
    obtain ⟨e, rfl⟩ := List.length_eq_one_iff.mp hes
    obtain rfl := List.eq_nil_of_length_eq_zero hss
    exact ⟨rfl, rfl, rfl⟩
  | whileLoop | doLoop | synchronized =>
    obtain ⟨e, rfl⟩ := List.length_eq_one_iff.mp hes
    obtain ⟨t, rfl⟩ := List.length_eq_one_iff.mp hss
    exact ⟨rfl, rfl, rfl⟩
  | ret i value =>
    obtain rfl := List.eq_nil_of_length_eq_zero (hss.trans (by cases value <;> rfl))
    cases value with
    | none =>
      obtain rfl := List.eq_nil_of_length_eq_zero hes
      exact ⟨rfl, rfl, rfl⟩
    | some value =>
      obtain ⟨e, rfl⟩ := List.length_eq_one_iff.mp hes
      exact ⟨rfl, rfl, rfl⟩
  | ifElse i cond yes no =>
    obtain ⟨e, rfl⟩ := List.length_eq_one_iff.mp (hes.trans (by cases no <;> rfl))
    cases no with
    | none =>
      obtain ⟨t, rfl⟩ := List.length_eq_one_iff.mp hss
      exact ⟨rfl, rfl, rfl⟩
    | some no =>
      obtain ⟨t, u, rfl⟩ := List.length_eq_two.mp hss
      exact ⟨rfl, rfl, rfl⟩
  | declare i decl =>
    rw [children, StmtPart.exprs_map_expr] at hes
    rw [children, StmtPart.stmts_map_expr] at hss
    obtain rfl := List.eq_nil_of_length_eq_zero hss
    have same := VarDecl.children_withChildren hes
    refine ⟨?_, ?_, ?_⟩
    · simp [withParts, children, Function.comp_def, StmtPart.isExpr, same, hes]
    · simp [withParts, children, same]
    · simp [withParts, children]
  | forEach i var iterable body =>
    obtain ⟨cs, e, rfl, hcs⟩ := exists_concat_of_length
      (n := var.children.length) (hes.trans (by simp [children]))
    obtain ⟨t, rfl⟩ := List.length_eq_one_iff.mp (hss.trans (by simp [children]))
    have same := VarDecl.children_withChildren hcs
    have var : var.withChildren (cs ++ [e]) = var.withChildren cs :=
      VarDecl.withChildren_append (Nat.le_of_eq hcs.symm) [e]
    refine ⟨?_, ?_, ?_⟩
    · simp [withParts, children, Function.comp_def, StmtPart.isExpr, var, same, hcs]
    · simp [withParts, children, var, same, ← hcs]
    · simp [withParts, children]
  | forLoop i init cond update body =>
    have hes : es.length = (cond.toList ++ update).length := hes.trans (by simp [children])
    obtain ⟨ts, t, rfl, hts⟩ := exists_concat_of_length
      (n := init.length) (hss.trans (by simp [children]))
    cases cond with
    | none =>
      refine ⟨?_, ?_, ?_⟩
      · simp [withParts, children, Function.comp_def, StmtPart.isExpr, ← hts, hes]
      · simp [withParts, children, ← hts]
      · simp [withParts, children, ← hts]
    | some cond =>
      cases es with
      | nil => exact absurd hes (by simp)
      | cons e es =>
        have hes : es.length = update.length := Nat.succ.inj (hes.trans (by simp))
        refine ⟨?_, ?_, ?_⟩
        · simp [withParts, children, Function.comp_def, StmtPart.isExpr, ← hts, hes]
        · simp [withParts, children, ← hts]
        · simp [withParts, children, ← hts]

/-- A statement that is rebuilt from parts of the kinds of its own has these parts. -/
theorem children_withParts {s : Stmt} {parts : List StmtPart}
    (kinds : parts.map StmtPart.isExpr = s.children.map StmtPart.isExpr) :
    (s.withParts (StmtPart.exprs parts) (StmtPart.stmts parts)).children = parts := by
  obtain ⟨hes, hss⟩ := StmtPart.length_eq_of_isExpr kinds
  obtain ⟨kept, exprs, stmts⟩ := parts_withParts hes hss
  exact StmtPart.eq_of_isExpr (kept.trans kinds.symm) exprs stmts

/-- A statement that is rebuilt from its own parts stays the same. -/
theorem withParts_children (s : Stmt) :
    s.withParts (StmtPart.exprs s.children) (StmtPart.stmts s.children) = s := by
  cases s with
  | ifElse i cond yes no => cases no <;> rfl
  | ret i value => cases value <;> rfl
  | forLoop i init cond update body => cases cond <;> simp [children, withParts]
  | forEach i var iterable body =>
    have own : var.withChildren (var.children ++ [iterable]) = var := by
      rw [VarDecl.withChildren_append (Nat.le_refl _), VarDecl.withChildren_children]
    simp [children, withParts, own]
  | declare i decl => simp [children, withParts, VarDecl.withChildren_children]
  | _ => simp [children, withParts]

end Stmt

end JavaRefactor
