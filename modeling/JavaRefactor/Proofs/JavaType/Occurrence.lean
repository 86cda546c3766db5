import JavaRefactor.JavaType.Substitution

/-!
# Where substitution finds a variable

A type variable occurs in a type where a substitution would replace it: also in the bounds of
other variables, but not below a signature that declares a variable of that name itself.  A
substitution leaves alone the types in which none of its variables occurs
(`JavaType.substitute_eq_self`).
-/

namespace JavaRefactor

namespace Substitution

variable {map : Substitution} {name : String}

/-- A name is not replaced if no entry has it. -/
theorem lookup_eq_none (h : ∀ entry ∈ map, entry.1 ≠ name) : map.lookup name = none :=
  List.lookup_eq_none_iff.mpr fun entry hentry => bne_iff_ne.mpr fun e => h entry hentry e.symm

/-- What is found was put there. -/
theorem mem_of_lookup {type : JavaType} (h : map.lookup name = some type) : (name, type) ∈ map := by
  obtain ⟨front, back, rfl, -⟩ := List.lookup_eq_some_iff.mp h
  exact List.mem_append_right _ List.mem_cons_self

/-- A parameter is replaced by one of the arguments. -/
theorem mem_of_lookup_ofParameters {params : List String} {args : List JavaType} {type : JavaType}
    (h : (ofParameters params args).lookup name = some type) : name ∈ params ∧ type ∈ args :=
  List.of_mem_zip (List.mem_reverse.mp (mem_of_lookup h))

/-- A substitution that replaces none of some variables stays the same outside of them. -/
theorem without_eq_self {vars : List String} (h : ∀ entry ∈ map, entry.1 ∉ vars) :
    map.without vars = map := by
  refine List.filter_eq_self.mpr fun entry hentry => ?_
  simpa using h entry hentry

end Substitution

namespace JavaType

mutual

/-- Whether a substitution would replace a type variable somewhere in a type. -/
def occurs (var : String) : JavaType → Bool
  | .primitive _ => false
  | .declared _ args => occursAny var args
  | .array element => occurs var element
  | .var name upper lower => name == var || occurs var upper || occursOption var lower
  | .wildcard _ bound => occursOption var bound
  | .method params ret => occursAny var params || occurs var ret
  | .generic vars signature => !vars.contains var && occurs var signature
  | .unknown => false

/-- Whether a substitution would replace a type variable in one of some types. -/
def occursAny (var : String) : List JavaType → Bool
  | [] => false
  | t :: ts => occurs var t || occursAny var ts

/-- Whether a substitution would replace a type variable in an optional type. -/
def occursOption (var : String) : Option JavaType → Bool
  | none => false
  | some t => occurs var t

end

mutual

/-- A substitution changes no type in which none of its variables occurs. -/
theorem substitute_eq_self {map : Substitution} :
    (t : JavaType) → (∀ entry ∈ map, t.occurs entry.1 = false) → t.substitute map = t
  | .primitive _, _ => rfl
  | .unknown, _ => rfl
  | .declared _ args, h => by
    rw [substitute, substituteEach_eq_self args fun entry hentry => h entry hentry]
  | .array element, h => by
    rw [substitute, substitute_eq_self element fun entry hentry => h entry hentry]
  | .var name upper lower, h => by
    have parts : ∀ entry ∈ map,
        (entry.1 ≠ name ∧ upper.occurs entry.1 = false) ∧ occursOption entry.1 lower = false := by
      intro entry hentry
      have apart := h entry hentry
      simp only [occurs, Bool.or_eq_false_iff, beq_eq_false_iff_ne] at apart
      exact ⟨⟨fun e => apart.1.1 e.symm, apart.1.2⟩, apart.2⟩
    rw [substitute, Substitution.lookup_eq_none fun entry hentry => (parts entry hentry).1.1,
      substitute_eq_self upper fun entry hentry => (parts entry hentry).1.2,
      substituteOption_eq_self lower fun entry hentry => (parts entry hentry).2]
  | .wildcard _ bound, h => by
    rw [substitute, substituteOption_eq_self bound fun entry hentry => h entry hentry]
  | .method params ret, h => by
    have parts : ∀ entry ∈ map, occursAny entry.1 params = false ∧ ret.occurs entry.1 = false :=
      fun entry hentry => Bool.or_eq_false_iff.mp (h entry hentry)
    rw [substitute, substituteEach_eq_self params fun entry hentry => (parts entry hentry).1,
      substitute_eq_self ret fun entry hentry => (parts entry hentry).2]
  | .generic vars signature, h => by
    rw [substitute, substitute_eq_self signature]
    -- below the quantifier only the entries for other variables are left
    intro entry hentry
    obtain ⟨hentry, free⟩ := List.mem_filter.mp hentry
    have apart := h entry hentry
    rw [occurs, free, Bool.true_and] at apart
    exact apart

theorem substituteEach_eq_self {map : Substitution} :
    (ts : List JavaType) → (∀ entry ∈ map, occursAny entry.1 ts = false) →
      substituteEach map ts = ts
  | [], _ => rfl
  | t :: ts, h => by
    have parts : ∀ entry ∈ map, t.occurs entry.1 = false ∧ occursAny entry.1 ts = false :=
      fun entry hentry => Bool.or_eq_false_iff.mp (h entry hentry)
    rw [substituteEach, substitute_eq_self t fun entry hentry => (parts entry hentry).1,
      substituteEach_eq_self ts fun entry hentry => (parts entry hentry).2]

theorem substituteOption_eq_self {map : Substitution} :
    (x : Option JavaType) → (∀ entry ∈ map, occursOption entry.1 x = false) →
      substituteOption map x = x
  | none, _ => rfl
  | some t, h => by
    rw [substituteOption, substitute_eq_self t fun entry hentry => h entry hentry]

end

/-- No type variable occurs in a type. -/
def VariableFree (type : JavaType) : Prop := ∀ vars, type.mentions vars = false

/-- A variable is not free of variables. -/
theorem VariableFree.not_var {name : String} {upper : JavaType} {lower : Option JavaType} :
    ¬ (var name upper lower).VariableFree :=
  fun free => absurd (free [name]) (by simp [mentions])

/-- No type variable occurs in the arguments of a type without any. -/
theorem VariableFree.of_mem {name : String} {args : List JavaType} {arg : JavaType}
    (free : (declared name args).VariableFree) (h : arg ∈ args) : arg.VariableFree := by
  intro vars
  have all : mentionsAny vars args = false := free vars
  induction args with
  | nil => exact absurd h List.not_mem_nil
  | cons t ts ih =>
    rw [mentionsAny, Bool.or_eq_false_iff] at all
    rcases List.mem_cons.mp h with rfl | h
    · exact all.1
    · exact ih (fun vars => (Bool.or_eq_false_iff.mp (free vars)).2) h all.2

end JavaType

end JavaRefactor
