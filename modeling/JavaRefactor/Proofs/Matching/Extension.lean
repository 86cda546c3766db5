import JavaRefactor.Matching.Stmt
import Mathlib.Data.List.Forall2

/-!
# Matching only adds bindings

A store of bindings extends another one if it keeps the values of all variables that are
bound there.  Matching passes a store along and only ever binds variables that are not bound
yet; this file says so of the variables one by one (`matchFree_extends`,
`matchType_extends`, `matchRepeated_extends`).  Whatever a variable stood for when a part of
a pattern was matched, it stands for in the end.
-/

namespace JavaRefactor

namespace Assignments

variable {α : Type} {entries extended : Assignments α} {name other : String} {value v : α}

/-- Binding puts a name that was not bound behind the others. -/
theorem eq_append_of_insert? (h : entries.insert? name value = some extended) :
    entries.lookup name = none ∧ extended = entries ++ [(name, value)] := by
  unfold insert? at h
  split at h
  · exact absurd h (by simp)
  · rename_i free
    exact ⟨free, (Option.some.inj h).symm⟩

/-- The value of a name that was just bound. -/
theorem lookup_insert?_self (h : entries.insert? name value = some extended) :
    extended.lookup name = some value := by
  obtain ⟨free, rfl⟩ := eq_append_of_insert? h
  rw [List.lookup_append, free, Option.none_or, List.lookup_cons_self]

/-- A name that is bound after an insertion was bound before or is the inserted one. -/
theorem lookup_of_insert? (h : entries.insert? name value = some extended)
    (hv : extended.lookup other = some v) :
    entries.lookup other = some v ∨ other = name ∧ v = value := by
  obtain ⟨-, rfl⟩ := eq_append_of_insert? h
  rw [List.lookup_append, Option.or_eq_some_iff] at hv
  rcases hv with hv | ⟨-, hv⟩
  · exact Or.inl hv
  · rw [List.lookup_cons] at hv
    split at hv
    · rename_i same
      exact Or.inr ⟨beq_iff_eq.mp same, (Option.some.inj hv).symm⟩
    · exact absurd hv (by simp)

end Assignments

/-! ### Lists of targets -/

/-- Reading all elements of a list succeeds if reading each of them does. -/
theorem mapM_eq_some_iff {α β : Type} {f : α → Option β} {xs : List α} {ys : List β} :
    xs.mapM f = some ys ↔ List.Forall₂ (fun x y => f x = some y) xs ys := by
  induction xs generalizing ys with
  | nil =>
    rw [List.mapM_nil, List.forall₂_nil_left_iff]
    exact Option.some_inj.trans eq_comm
  | cons x xs ih =>
    rw [List.mapM_cons, List.forall₂_cons_left_iff]
    constructor
    · intro h
      obtain ⟨y, hy, h⟩ := Option.bind_eq_some_iff.mp h
      obtain ⟨ys, hys, h⟩ := Option.bind_eq_some_iff.mp h
      exact ⟨y, ys, hy, ih.mp hys, (Option.some.inj h).symm⟩
    · rintro ⟨y, ys, hy, hys, rfl⟩
      rw [hy, ih.mpr hys]
      rfl

/-- What is read is read from some element. -/
theorem exists_of_mem_mapM {α β : Type} {f : α → Option β} {xs : List α} {ys : List β} {y : β}
    (h : xs.mapM f = some ys) (hy : y ∈ ys) : ∃ x ∈ xs, f x = some y := by
  rw [mapM_eq_some_iff] at h
  induction h with
  | nil => exact absurd hy List.not_mem_nil
  | cons read _ ih =>
    rcases List.mem_cons.mp hy with rfl | hy
    · exact ⟨_, List.mem_cons_self, read⟩
    · obtain ⟨x, hx, read⟩ := ih hy
      exact ⟨x, List.mem_cons_of_mem _ hx, read⟩

namespace Bindings

/-- One store keeps the values of another: what is bound in `a` is bound to the same value
in `b`. -/
structure Extends (b a : Bindings) : Prop where
  free : ∀ name e, a.free.lookup name = some e → b.free.lookup name = some e
  locals : ∀ name v, a.locals.lookup name = some v → b.locals.lookup name = some v
  types : ∀ name t, a.types.lookup name = some t → b.types.lookup name = some t
  repeated : ∀ name es, a.repeated.lookup name = some es → b.repeated.lookup name = some es

/-- Bindings extend themselves. -/
theorem Extends.refl (b : Bindings) : b.Extends b :=
  ⟨fun _ _ h => h, fun _ _ h => h, fun _ _ h => h, fun _ _ h => h⟩

/-- What extends bindings that extend others extends those. -/
theorem Extends.trans {a b c : Bindings} (h : c.Extends b) (h' : b.Extends a) : c.Extends a :=
  ⟨fun n e he => h.free n e (h'.free n e he), fun n v hv => h.locals n v (h'.locals n v hv),
    fun n t ht => h.types n t (h'.types n t ht),
    fun n es hes => h.repeated n es (h'.repeated n es hes)⟩

/-! ### Binding one variable -/

/-- Binding a free variable changes the free variables alone. -/
theorem insertFree_eq_ok {b b' : Bindings} {name : String} {e : Expr}
    (h : b.insertFree name e = .ok b') :
    ∃ free, b.free.insert? name e = some free ∧ b' = { b with free } := by
  unfold insertFree at h
  split at h
  · rename_i free hfree
    exact ⟨free, hfree, (Except.ok.inj h).symm⟩
  · exact absurd h (by simp)

/-- Binding a local variable changes the local variables alone. -/
theorem insertLocal_eq_ok {b b' : Bindings} {name : String} {v : LocalBinding}
    (h : b.insertLocal name v = .ok b') :
    ∃ locals, b.locals.insert? name v = some locals ∧ b' = { b with locals } := by
  unfold insertLocal at h
  split at h
  · rename_i locals hlocals
    exact ⟨locals, hlocals, (Except.ok.inj h).symm⟩
  · exact absurd h (by simp)

/-- Binding a local variable extends the bindings. -/
theorem insertLocal_extends {b b' : Bindings} {name : String} {v : LocalBinding}
    (h : b.insertLocal name v = .ok b') : b'.Extends b := by
  obtain ⟨locals, hlocals, rfl⟩ := insertLocal_eq_ok h
  exact ⟨fun _ _ h => h, fun n v hv => Assignments.lookup_insert?_of_lookup hlocals hv,
    fun _ _ h => h, fun _ _ h => h⟩

/-- A local variable that was bound is found. -/
theorem lookup_insertLocal {b b' : Bindings} {name : String} {v : LocalBinding}
    (h : b.insertLocal name v = .ok b') : b'.locals.lookup name = some v := by
  obtain ⟨locals, hlocals, rfl⟩ := insertLocal_eq_ok h
  exact Assignments.lookup_insert?_self hlocals

/-- Binding a type variable changes the type variables alone. -/
theorem insertType_eq_ok {b b' : Bindings} {name : String} {t : TypeBinding}
    (h : b.insertType name t = .ok b') :
    ∃ types, b.types.insert? name t = some types ∧ b' = { b with types } := by
  unfold insertType at h
  split at h
  · rename_i types htypes
    exact ⟨types, htypes, (Except.ok.inj h).symm⟩
  · exact absurd h (by simp)

/-- Binding a repeated variable changes the repeated variables alone. -/
theorem insertRepeated_eq_ok {b b' : Bindings} {name : String} {es : List Expr}
    (h : b.insertRepeated name es = .ok b') :
    ∃ repeated, b.repeated.insert? name es = some repeated ∧ b' = { b with repeated } := by
  unfold insertRepeated at h
  split at h
  · rename_i repeated hrepeated
    exact ⟨repeated, hrepeated, (Except.ok.inj h).symm⟩
  · exact absurd h (by simp)

/-- A computation that leaves a result has succeeded with it. -/
theorem toOption_eq_some {ε α : Type} {x : Except ε α} {a : α} (h : x.toOption = some a) :
    x = .ok a := by
  cases x with
  | error e => exact absurd h (by simp [Except.toOption])
  | ok b => exact congrArg _ (Option.some.inj h)

/-! ### Matching one variable -/

/-- How a free variable matches: it is bound to the target, or was bound to an expression
that looks like it. -/
theorem matchFree_eq_some {b b' : Bindings} {name : String} {target : Expr}
    (h : b.matchFree name target = some b') :
    (target.form ≠ .super ∧ b.localSymbols.any target.references = false) ∧
      ((b.free.lookup name = none ∧ b.insertFree name target = .ok b') ∨
        ∃ bound, b.free.lookup name = some bound ∧ bound.looksLike target = true ∧ b' = b) := by
  unfold matchFree at h
  split at h
  · exact absurd h (by simp)
  · rename_i allowed
    refine ⟨by simpa using allowed, ?_⟩
    split at h
    · rename_i unbound
      exact Or.inl ⟨unbound, toOption_eq_some h⟩
    · rename_i bound hbound
      split at h
      · rename_i alike
        exact Or.inr ⟨bound, hbound, alike, (Option.some.inj h).symm⟩
      · exact absurd h (by simp)

/-- Matching a variable for one expression extends the bindings. -/
theorem matchFree_extends {b b' : Bindings} {name : String} {target : Expr}
    (h : b.matchFree name target = some b') : b'.Extends b := by
  obtain ⟨-, ⟨-, inserted⟩ | ⟨bound, -, -, rfl⟩⟩ := matchFree_eq_some h
  · obtain ⟨free, hfree, rfl⟩ := insertFree_eq_ok inserted
    exact ⟨fun n e he => Assignments.lookup_insert?_of_lookup hfree he, fun _ _ h => h,
      fun _ _ h => h, fun _ _ h => h⟩
  · exact .refl _

/-- How a local variable matches: the target refers to the local that it is bound to. -/
theorem matchLocal_eq_some {b b' : Bindings} {name : String} {target : Expr}
    (h : b.matchLocal name target = some b') :
    b' = b ∧ ∃ i found bound, target = .ident i found (some bound.symbol) ∧
      b.locals.lookup name = some bound := by
  unfold matchLocal at h
  split at h
  · rename_i i found symbol bound hbound
    split at h
    · rename_i same
      exact ⟨(Option.some.inj h).symm, i, found, bound, by rw [same], hbound⟩
    · exact absurd h (by simp)
  · exact absurd h (by simp)

/-- How a type variable matches: it is bound to the type of the target, or was bound to a type
that is the same. -/
theorem matchType_eq_some {b b' : Bindings} {name : String} {target : Expr}
    (h : b.matchType name target = some b') :
    (b.types.lookup name = none ∧ b.insertType name ⟨target.type, some target⟩ = .ok b') ∨
      ∃ bound, b.types.lookup name = some bound ∧ bound.type.isSame target.type = true ∧
        b' = b := by
  unfold matchType at h
  split at h
  · rename_i unbound
    exact .inl ⟨unbound, toOption_eq_some h⟩
  · rename_i bound hbound
    split at h
    · rename_i same
      exact .inr ⟨bound, hbound, same, (Option.some.inj h).symm⟩
    · exact absurd h (by simp)

/-- Matching a type parameter extends the bindings. -/
theorem matchType_extends {b b' : Bindings} {name : String} {target : Expr}
    (h : b.matchType name target = some b') : b'.Extends b := by
  obtain ⟨-, inserted⟩ | ⟨_, -, -, rfl⟩ := matchType_eq_some h
  · obtain ⟨types, htypes, rfl⟩ := insertType_eq_ok inserted
    exact ⟨fun _ _ h => h, fun _ _ h => h,
      fun n e he => Assignments.lookup_insert?_of_lookup htypes he, fun _ _ h => h⟩
  · exact .refl _

/-- How a repeated variable matches: it is bound to what it takes from each target. -/
theorem matchRepeated_eq_some {b b' : Bindings} {name : String} {targets : List Expr}
    (h : b.matchRepeated name targets = some b') :
    ∃ items, targets.mapM (b.repeatedItem name) = some items ∧
      b.insertRepeated name items = .ok b' := by
  obtain ⟨items, hitems, hb⟩ := Option.bind_eq_some_iff.mp h
  exact ⟨items, hitems, toOption_eq_some hb⟩

/-- Matching a variable for several expressions extends the bindings. -/
theorem matchRepeated_extends {b b' : Bindings} {name : String} {targets : List Expr}
    (h : b.matchRepeated name targets = some b') : b'.Extends b := by
  obtain ⟨items, -, inserted⟩ := matchRepeated_eq_some h
  obtain ⟨repeated, hrepeated, rfl⟩ := insertRepeated_eq_ok inserted
  exact ⟨fun _ _ h => h, fun _ _ h => h, fun _ _ h => h,
    fun n e he => Assignments.lookup_insert?_of_lookup hrepeated he⟩

end Bindings

end JavaRefactor
