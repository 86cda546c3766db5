import JavaRefactor.Matching.Expr
import JavaRefactor.Tree.Rebuild
import Mathlib.Data.List.Forall2

/-!
# Equivalence of syntax trees

Two trees are equivalent if they differ only in what does not change the program: spans,
types, symbols, `final`, comments and parentheses.  A free variable that occurs twice accepts
a second expression of the same type and printed form, and a member without a receiver reads
as a member of `this`, so both are equivalences too.  `Expr.Equiv` and `Stmt.Equiv` are the
least congruences with these rules.
-/

namespace JavaRefactor

namespace Expr

/-- Equivalence of expressions: the least congruence that ignores spans, types, symbols and
parentheses, relates expressions that look alike, and relates the members of `this` to their
bare names. -/
inductive Equiv : Expr → Expr → Prop where
  | refl (e : Expr) : Equiv e e
  | symm {a b : Expr} (h : Equiv a b) : Equiv b a
  | trans {a b c : Expr} (h : Equiv a b) (h' : Equiv b c) : Equiv a c
  | info (i : NodeInfo) (e : Expr) : Equiv (e.withInfo i) e
  | identSymbol (i : NodeInfo) (name : String) (s t : Option SymbolId) :
      Equiv (.ident i name s) (.ident i name t)
  | selectSymbol (i : NodeInfo) (receiver : Expr) (name : String) (s t : Option SymbolId) :
      Equiv (.select i receiver name s) (.select i receiver name t)
  | paren (i : NodeInfo) (e : Expr) : Equiv (.paren i e) e
  | alike {a b : Expr} (h : a.looksLike b = true) : Equiv a b
  | ownMember (i j : NodeInfo) (name : String) (s : Option SymbolId) :
      Equiv (.select i (.this j) name s) (.ident i name s)
  | congr {e : Expr} {cs : List Expr} (h : List.Forall₂ Equiv cs e.children) :
      Equiv (e.withChildren cs) e

namespace Equiv

/-- A node with equivalent children in place of those of another is equivalent to it,
whatever its own data. -/
theorem ofChildren {r e : Expr} (cs : List Expr) (h : List.Forall₂ Equiv cs e.children)
    (rebuilt : (e.withChildren cs).withInfo r.info = r) : Equiv r e := by
  rw [← rebuilt]
  exact .trans (.info r.info _) (.congr h)

/-- An identifier is its name. -/
theorem ident (i j : NodeInfo) (name : String) (s t : Option SymbolId) :
    Equiv (.ident i name s) (.ident j name t) :=
  .trans (.identSymbol i name s t) (.info i (.ident j name t))

/-- Members of equivalent receivers are equivalent. -/
theorem select (i j : NodeInfo) {a b : Expr} (h : Equiv a b) (name : String)
    (s t : Option SymbolId) : Equiv (.select i a name s) (.select j b name t) :=
  .trans (.selectSymbol i a name s t) (ofChildren [a] (.cons h .nil) rfl)

/-- A member of something equivalent to `this` is equivalent to its bare name. -/
theorem selectOwn (i j k : NodeInfo) {a : Expr} (h : Equiv a (.this k)) (name : String)
    (s t : Option SymbolId) : Equiv (.select i a name s) (.ident j name t) :=
  .trans (select i j h name s t) (.ownMember j k name t)

/-- Optional children of an array creation that are equivalent make equivalent creations. -/
theorem newArray (i j : NodeInfo) {element element' : Option Expr} {dims dims' : List Expr}
    {init init' : Option (List Expr)} (hElement : Option.Rel Equiv element element')
    (hDims : List.Forall₂ Equiv dims dims')
    (hInit : Option.Rel (List.Forall₂ Equiv) init init') :
    Equiv (.newArray i element dims init) (.newArray j element' dims' init') := by
  have same : dims'.length = dims.length := hDims.length_eq.symm
  have tail : List.Forall₂ Equiv (dims ++ init.getD []) (dims' ++ init'.getD []) := by
    refine List.rel_append hDims ?_
    cases hInit with
    | none => exact .nil
    | some h => exact h
  have rest : init'.map (fun _ => init.getD []) = init := by
    cases hInit with
    | none => rfl
    | some h => rfl
  cases hElement with
  | none =>
    refine ofChildren (dims ++ init.getD []) tail ?_
    rw [withChildren, same, List.take_left, List.drop_left, rest]
    rfl
  | @some a b hab =>
    refine ofChildren (a :: (dims ++ init.getD [])) (.cons hab tail) ?_
    rw [withChildren, List.getD_cons_zero, List.tail_cons, same, List.take_left,
      List.drop_left, rest]
    rfl

/-- Parentheses around an expression do not matter, however many there are. -/
theorem skipParens (e : Expr) : Equiv e.skipParens e := by
  induction e using Expr.induction with
  | step e ih =>
    cases e with
    | paren i inner => exact .trans (ih inner (by simp [children])) (.symm (.paren i inner))
    | _ => exact .refl _

end Equiv

end Expr

namespace Stmt

/-- Equivalence of statements: the least congruence over the equivalence of expressions that
ignores spans, comments, `final` and the symbols of declarations. -/
inductive Equiv : Stmt → Stmt → Prop where
  | refl (s : Stmt) : Equiv s s
  | symm {s t : Stmt} (h : Equiv s t) : Equiv t s
  | trans {s t u : Stmt} (h : Equiv s t) (h' : Equiv t u) : Equiv s u
  | info (i : StmtInfo) (s : Stmt) : Equiv (s.withInfo i) s
  | declared (i : StmtInfo) (d : VarDecl) (symbol : Option SymbolId) (isFinal : Bool) :
      Equiv (.declare i { d with symbol, isFinal }) (.declare i d)
  | loopVariable (i : StmtInfo) (d : VarDecl) (symbol : Option SymbolId) (isFinal : Bool)
      (iterable : Expr) (body : Stmt) :
      Equiv (.forEach i { d with symbol, isFinal } iterable body)
        (.forEach i d iterable body)
  | congr {s : Stmt} {es : List Expr} {ss : List Stmt}
      (hes : List.Forall₂ Expr.Equiv es (StmtPart.exprs s.children))
      (hss : List.Forall₂ Equiv ss (StmtPart.stmts s.children)) :
      Equiv (s.withParts es ss) s

end Stmt

/-- Equivalence of declarations: one name, and equivalent types and initializers. -/
structure VarDecl.Equiv (d d' : VarDecl) : Prop where
  name : d.name = d'.name
  type : d.type.Equiv d'.type
  init : Option.Rel Expr.Equiv d.init d'.init

namespace VarDecl.Equiv

/-- The expressions of equivalent declarations are equivalent one by one. -/
theorem children {d d' : VarDecl} (h : d.Equiv d') :
    List.Forall₂ Expr.Equiv d.children d'.children := by
  obtain ⟨_, _, init, _, _⟩ := d
  obtain ⟨_, _, init', _, _⟩ := d'
  obtain ⟨-, type, hinit⟩ := h
  cases hinit with
  | none => exact .cons type .nil
  | some h => exact .cons type (.cons h .nil)

/-- A declaration with the expressions of an equivalent one is that one, up to its symbol and
`final`. -/
theorem withChildren_children {d d' : VarDecl} (h : d.Equiv d') :
    { d'.withChildren d.children with symbol := d.symbol, isFinal := d.isFinal } = d := by
  obtain ⟨name, type, init, symbol, isFinal⟩ := d
  obtain ⟨name', type', init', symbol', isFinal'⟩ := d'
  obtain ⟨hname, -, hinit⟩ := h
  obtain rfl : name = name' := hname
  have restored : init'.map (fun e => (VarDecl.children ⟨name, type, init, symbol, isFinal⟩).getD
      1 e) = init := by
    cases hinit with
    | none => rfl
    | some h => rfl
  exact congrArg (fun x => (⟨name, type, x, symbol, isFinal⟩ : VarDecl)) restored

end VarDecl.Equiv

namespace Stmt.Equiv

/-- A statement with equivalent parts in place of those of another is equivalent to it,
whatever its own data. -/
theorem ofParts {r s : Stmt} (es : List Expr) (ss : List Stmt)
    (hes : List.Forall₂ Expr.Equiv es (StmtPart.exprs s.children))
    (hss : List.Forall₂ Equiv ss (StmtPart.stmts s.children))
    (rebuilt : (s.withParts es ss).withInfo r.info = r) : Equiv r s := by
  rw [← rebuilt]
  exact .trans (.info r.info _) (.congr hes hss)

/-- Conditional statements whose parts are equivalent one by one are equivalent. -/
theorem ifElse (i j : StmtInfo) {cond cond' : Expr} {yes yes' : Stmt} {no no' : Option Stmt}
    (hCond : cond.Equiv cond') (hYes : Equiv yes yes') (hNo : Option.Rel Equiv no no') :
    Equiv (.ifElse i cond yes no) (.ifElse j cond' yes' no') := by
  refine ofParts [cond] (yes :: no.toList) (by simpa [children] using hCond) ?_ ?_
  · cases hNo with
    | none => simpa [children] using hYes
    | some hNo => simpa [children] using ⟨hYes, hNo⟩
  · cases hNo with
    | none => rfl
    | some hNo => rfl

/-- Returns of equivalent values are equivalent. -/
theorem ret (i j : StmtInfo) {value value' : Option Expr}
    (h : Option.Rel Expr.Equiv value value') : Equiv (.ret i value) (.ret j value') := by
  cases h with
  | none => exact .ofParts [] [] .nil .nil rfl
  | @some e e' h => exact .ofParts [e] [] (.cons h .nil) .nil rfl

/-- Equivalent declarations make equivalent declaration statements. -/
theorem declare (i j : StmtInfo) {d d' : VarDecl} (h : d.Equiv d') :
    Equiv (.declare i d) (.declare j d') := by
  have rebuilt : Equiv (.declare i (d'.withChildren d.children)) (.declare j d') := by
    refine ofParts d.children [] ?_ ?_ rfl
    · rw [children, StmtPart.exprs_map_expr]
      exact h.children
    · rw [children, StmtPart.stmts_map_expr]
      exact .nil
  have relabelled := Equiv.declared i (d'.withChildren d.children) d.symbol d.isFinal
  rw [h.withChildren_children] at relabelled
  exact .trans relabelled rebuilt

/-- Loops over equivalent sequences with equivalent variables and bodies are equivalent. -/
theorem forEach (i j : StmtInfo) {d d' : VarDecl} {e e' : Expr} {s s' : Stmt} (hd : d.Equiv d')
    (he : e.Equiv e') (hs : Equiv s s') : Equiv (.forEach i d e s) (.forEach j d' e' s') := by
  have lengths : d'.children.length = d.children.length := hd.children.length_eq.symm
  have rebuilt : Equiv (.forEach i (d'.withChildren d.children) e s) (.forEach j d' e' s') := by
    refine ofParts (d.children ++ [e]) [s] ?_ ?_ ?_
    · simpa [children] using List.rel_append hd.children (.cons he .nil)
    · simpa [children] using hs
    · have next : (d.children ++ [e]).getD d'.children.length e' = e := by
        rw [lengths]
        simp
      rw [withParts, next, VarDecl.withChildren_append (Nat.le_of_eq lengths)]
      rfl
  have relabelled := Equiv.loopVariable i (d'.withChildren d.children) d.symbol d.isFinal e s
  rw [hd.withChildren_children] at relabelled
  exact .trans relabelled rebuilt

/-- Loops whose parts are equivalent one by one are equivalent. -/
theorem forLoop (i j : StmtInfo) {init init' : List Stmt} {cond cond' : Option Expr}
    {update update' : List Expr} {body body' : Stmt} (hInit : List.Forall₂ Equiv init init')
    (hCond : Option.Rel Expr.Equiv cond cond') (hUpdate : List.Forall₂ Expr.Equiv update update')
    (hBody : Equiv body body') :
    Equiv (.forLoop i init cond update body) (.forLoop j init' cond' update' body') := by
  have lengths : init'.length = init.length := hInit.length_eq.symm
  have stmts : List.Forall₂ Equiv (init ++ [body]) (init' ++ [body']) :=
    List.rel_append hInit (.cons hBody .nil)
  have taken : (init ++ [body]).take init'.length = init := by
    rw [lengths, List.take_left]
  have last : (init ++ [body]).getD init'.length body' = body := by
    rw [lengths]
    simp
  cases hCond with
  | none =>
    refine ofParts update (init ++ [body]) (by simpa [children] using hUpdate)
      (by simpa [children] using stmts) ?_
    rw [withParts, taken, last]
    rfl
  | @some x y hx =>
    refine ofParts (x :: update) (init ++ [body]) (by simpa [children] using ⟨hx, hUpdate⟩)
      (by simpa [children] using stmts) ?_
    rw [withParts, taken, last]
    rfl

end Stmt.Equiv

end JavaRefactor
