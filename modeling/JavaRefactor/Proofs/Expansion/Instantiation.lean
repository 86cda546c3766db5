import JavaRefactor.Expansion.Type
import JavaRefactor.Proofs.JavaType.Occurrence

/-!
# Expanding a type before and after its variables are found

A declared type can be expanded while some of its variables are not bound, and the types that
are found for them substituted afterwards; or it can be expanded once all of them are bound.
The two ways agree (`TypePattern.expand_substitute`) as long as what the variables stood for
first is not changed by the substitution, and no quantifier of the declared type hides a
variable from it.
-/

namespace JavaRefactor

namespace TypePattern

mutual

/-- Whether a signature inside of a pattern declares a type variable of its own by this name. -/
def quantifies (var : String) : TypePattern → Bool
  | .primitive _ => false
  | .declared _ args => quantifiesAny var args
  | .array element => quantifies var element
  | .var _ => false
  | .wildcard _ bound => quantifiesOption var bound
  | .method params ret => quantifiesAny var params || quantifies var ret
  | .generic vars signature => vars.contains var || quantifies var signature

/-- Whether a signature inside of one of some patterns declares a type variable. -/
def quantifiesAny (var : String) : List TypePattern → Bool
  | [] => false
  | p :: ps => quantifies var p || quantifiesAny var ps

/-- Whether a signature inside of an optional pattern declares a type variable. -/
def quantifiesOption (var : String) : Option TypePattern → Bool
  | none => false
  | some p => quantifies var p

end

variable {table : ClassTable} {a b : Bindings} {found : Substitution}

mutual

/-- Substituting types for the variables of an expanded pattern is expanding the pattern under
bindings that have these types for the variables. -/
theorem expand_substitute
    (named : ∀ var, b.typeNamed var = (a.typeNamed var).substitute found) :
    (p : TypePattern) → (∀ entry ∈ found, p.quantifies entry.1 = false) →
      p.expand table b = (p.expand table a).map (JavaType.substitute found)
  | .primitive _, _ => rfl
  | .var name, _ => congrArg Except.ok (named name)
  | .declared name args, open_ => by
    simp only [expand, expandEach_substitute named args open_]
    cases table.resolve name with
    | error e => rfl
    | ok decl => cases expandEach table a args <;> rfl
  | .array element, open_ => by
    simp only [expand, expand_substitute named element open_]
    cases expand table a element <;> rfl
  | .wildcard kind bound, open_ => by
    simp only [expand, expandOption_substitute named bound open_]
    cases expandOption table a bound <;> rfl
  | .method params ret, open_ => by
    have parts : ∀ entry ∈ found,
        quantifiesAny entry.1 params = false ∧ ret.quantifies entry.1 = false :=
      fun entry hentry => Bool.or_eq_false_iff.mp (open_ entry hentry)
    simp only [expand, expandEach_substitute named params fun e he => (parts e he).1,
      expand_substitute named ret fun e he => (parts e he).2]
    cases expandEach table a params with
    | error e => rfl
    | ok types => cases expand table a ret <;> rfl
  | .generic vars signature, open_ => by
    have parts : ∀ entry ∈ found, entry.1 ∉ vars ∧ signature.quantifies entry.1 = false := by
      intro entry hentry
      have apart := open_ entry hentry
      simp only [quantifies, Bool.or_eq_false_iff] at apart
      exact ⟨by simpa using apart.1, apart.2⟩
    -- the signature quantifies over none of the variables, so the substitution goes under it
    -- unchanged
    have same : found.without vars = found :=
      Substitution.without_eq_self fun e he => (parts e he).1
    simp only [expand, expand_substitute named signature fun e he => (parts e he).2]
    cases expand table a signature with
    | error e => rfl
    | ok type =>
      show Except.ok _ = Except.ok (JavaType.generic vars (type.substitute (found.without vars)))
      rw [same]

theorem expandEach_substitute
    (named : ∀ var, b.typeNamed var = (a.typeNamed var).substitute found) :
    (ps : List TypePattern) → (∀ entry ∈ found, quantifiesAny entry.1 ps = false) →
      expandEach table b ps = (expandEach table a ps).map (JavaType.substituteEach found)
  | [], _ => rfl
  | p :: ps, open_ => by
    have parts : ∀ entry ∈ found,
        p.quantifies entry.1 = false ∧ quantifiesAny entry.1 ps = false :=
      fun entry hentry => Bool.or_eq_false_iff.mp (open_ entry hentry)
    simp only [expandEach, expand_substitute named p fun e he => (parts e he).1,
      expandEach_substitute named ps fun e he => (parts e he).2]
    cases expand table a p with
    | error e => rfl
    | ok type => cases expandEach table a ps <;> rfl

theorem expandOption_substitute
    (named : ∀ var, b.typeNamed var = (a.typeNamed var).substitute found) :
    (p : Option TypePattern) → (∀ entry ∈ found, quantifiesOption entry.1 p = false) →
      expandOption table b p = (expandOption table a p).map (JavaType.substituteOption found)
  | none, _ => rfl
  | some p, open_ => by
    simp only [expandOption, expand_substitute named p open_]
    cases expand table a p <;> rfl

end

end TypePattern

end JavaRefactor
