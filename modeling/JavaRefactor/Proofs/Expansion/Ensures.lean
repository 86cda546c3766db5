import JavaRefactor.Expansion.Expr

/-!
# What an expansion ensures

An expansion may fail.  `Expanding.Ensures x P` says that whatever it gives when it does not
fail has the property `P`, from whatever imports it starts.  A reference to a class cannot fail,
and `Importing.Ensures` says the same of what such a computation gives.
-/

namespace JavaRefactor

/-- A second step runs on what the first one gives, with the imports of the first; a failure
ends the expansion. -/
theorem Expanding.run_bind {α β : Type} (x : Expanding α) (f : α → Expanding β)
    (pending : PendingImports) :
    (x >>= f).run pending
      = match x.run pending with
        | (.ok a, middle) => (f a).run middle
        | (.error e, middle) => (.error e, middle) := by
  show (match (x pending : Except ExpansionError α × PendingImports) with
    | (a, middle) => ExceptT.bindCont f a middle) = _
  rcases h : x pending with ⟨e | a, middle⟩
  · rw [ExceptT.run, h]
    rfl
  · rw [ExceptT.run, h]
    rfl

/-- Whatever an expansion gives has a property. -/
def Expanding.Ensures {α : Type} (x : Expanding α) (P : α → Prop) : Prop :=
  ∀ pending a pending', x.run pending = (.ok a, pending') → P a

namespace Expanding.Ensures

variable {α β : Type} {P : α → Prop} {Q : β → Prop}

/-- A result that is given has the property. -/
theorem pure {a : α} (h : P a) : Ensures (Pure.pure a) P := by
  intro pending b pending' run
  have same : (Except.ok a : Except ExpansionError α) = .ok b := congrArg Prod.fst run
  rw [← Except.ok.inj same]
  exact h

/-- An expansion that fails gives nothing. -/
theorem throw (e : ExpansionError) : Ensures (MonadExcept.throw e : Expanding α) P := by
  intro pending a pending' run
  have same : (Except.error e : Except ExpansionError α) = .ok a := congrArg Prod.fst run
  exact absurd same (by simp)

/-- Whatever is given is something. -/
theorem trivial (x : Expanding α) : Ensures x fun _ => True := fun _ _ _ _ => True.intro

/-- What a second step gives follows from what the first one ensures. -/
theorem bind {x : Expanding α} {f : α → Expanding β} (hx : Ensures x P)
    (hf : ∀ a, P a → Ensures (f a) Q) : Ensures (x >>= f) Q := by
  intro pending b pending' run
  rw [run_bind] at run
  split at run
  · rename_i a middle first
    exact hf a (hx pending a middle first) middle b pending' run
  · exact absurd (congrArg Prod.fst run) (by simp)

end Expanding.Ensures

/-! ### Without failures -/

/-- Whatever a computation that collects imports gives has a property. -/
def Importing.Ensures {α : Type} (x : Importing α) (P : α → Prop) : Prop :=
  ∀ pending, P (x.run pending).1

namespace Importing.Ensures

variable {α β : Type} {P : α → Prop} {Q : β → Prop}

/-- A result that is given has the property. -/
theorem pure {a : α} (h : P a) : Ensures (Pure.pure a) P := fun _ => h

/-- What two computations give in turn has the property that the second one ensures. -/
theorem bind {x : Importing α} {f : α → Importing β} (hx : Ensures x P)
    (hf : ∀ a, P a → Ensures (f a) Q) : Ensures (x >>= f) Q :=
  fun pending => hf _ (hx pending) _

/-- Whatever is given is something. -/
theorem trivial (x : Importing α) : Ensures x fun _ => True := fun _ => True.intro

/-- An expansion that only collects imports. -/
theorem lift {x : Importing α} (h : Ensures x P) : Expanding.Ensures (liftM x) P := by
  intro pending a pending' run
  have same : (Except.ok (x.run pending).1 : Except ExpansionError α) = .ok a :=
    congrArg Prod.fst run
  rw [← Except.ok.inj same]
  exact h pending

end Importing.Ensures

end JavaRefactor
