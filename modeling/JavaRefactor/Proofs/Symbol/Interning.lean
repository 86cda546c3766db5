import JavaRefactor.Proofs.Text.Dotted
import JavaRefactor.Symbol
import Mathlib.Data.List.Induction

/-!
# Runs of a symbol table

A symbol table answers requests: for a local variable, a field, a method, or the symbol of a
class.  `SymbolTable.Answered` says all that one request can do to a table.  A table keeps
records of the requests that it has answered (`SymbolTable.Records`): a symbol has its index as its
id, an id keeps the symbol that it was given for, and a class is found exactly if it was asked for.
Every request keeps this up, so it holds after every run from the empty table, whatever the names
are (`SymbolTable.run_interns`).  What is given are ids as long as there are not more requests than
ids (`SymbolTable.lt_count_of_mem_log`); only a request that asks whether one is left may be made of
a full table.
-/

namespace JavaRefactor

/-- A class is named by the owner and the simple name of its symbol. -/
theorem SymbolTable.qualifiedName_classSymbol (name : String) (id : SymbolId) :
    Symbol.qualifiedName { classSymbol name with id } = name := by
  unfold classSymbol
  by_cases dotted : '.' ∈ name.toList
  · have whole := Dotted.eq_qualifier_append dotted
    have parts : Dotted.split? name = some (Dotted.qualifier name, Dotted.simpleName name) := by
      rw [whole, Dotted.split?_append (Dotted.not_mem_simpleName name), ← whole]
    rw [parts]
    exact whole.symm
  · rw [Dotted.split?_eq_none dotted]
    rfl

namespace SymbolTable

/-- What a table can be asked for. -/
inductive Request where
  | localVar (name : String) (type : JavaType)
  /-- A local variable, if there is an id left for it. -/
  | tryLocalVar (name : String) (type : JavaType)
  | field (owner name : String) (type : JavaType) (isStatic : Bool)
  | method (owner name : String) (type : JavaType) (isStatic isVariadic : Bool)
  /-- The symbol of a class, by qualified name. -/
  | ofClass (name : String)

/-- The symbol that is asked for, before it gets an id. -/
def Request.symbol : Request → Symbol
  | .localVar name type | .tryLocalVar name type => ⟨0, .localVar, name, none, type, false, false⟩
  | .field owner name type isStatic => ⟨0, .field, name, some owner, type, isStatic, false⟩
  | .method owner name type isStatic isVariadic =>
    ⟨0, .method, name, some owner, type, isStatic, isVariadic⟩
  | .ofClass name => classSymbol name

/-- The class that is to be found under an id. -/
def Request.found (id : SymbolId) : Request → List (String × SymbolId)
  | .ofClass name => [(name, id)]
  | _ => []

/-- A request with its answer: an id, or that there is none left. -/
abbrev Entry : Type := Request × Except SymbolTableFull SymbolId

/-- Answer one request. -/
def answer (t : SymbolTable) : Request → SymbolTable × Except SymbolTableFull SymbolId
  | .localVar name type => (t.addVariable name type).map id .ok
  | .tryLocalVar name type =>
    match t.addVariable? name type with
    | .ok (extended, id) => (extended, .ok id)
    | .error e => (t, .error e)
  | .field owner name type isStatic => (t.addField owner name type isStatic).map id .ok
  | .method owner name type isStatic isVariadic =>
    (t.addMethod owner name type isStatic isVariadic).map id .ok
  | .ofClass name => (t.internClass name).map id .ok

/-- Answer requests one after another, from the empty table. -/
def run (rs : List Request) : SymbolTable × List Entry :=
  rs.foldl (fun (t, log) r => ((t.answer r).1, log ++ [(r, (t.answer r).2)])) (.empty, [])

/-! ### One request -/

variable {t t' : SymbolTable} {r : Request} {log : List Entry}

/-- All that a request can do: declare a symbol, find a class that is there, or be refused by a full
table. -/
inductive Answered (t : SymbolTable) :
    Request → SymbolTable → Except SymbolTableFull SymbolId → Prop where
  | declared {r : Request} {t' : SymbolTable} :
    t'.symbols = t.symbols ++ [{ r.symbol with id := t.size }] →
    t'.classes = r.found t.size ++ t.classes →
    (∀ name, r = .ofClass name → t.findClass? name = none) → Answered t r t' (.ok t.size)
  | known {name : String} {id : SymbolId} : t.findClass? name = some id →
    Answered t (.ofClass name) t (.ok id)
  | refused {name : String} {type : JavaType} : SymbolId.count ≤ t.size →
    Answered t (.tryLocalVar name type) t (.error ⟨t.size⟩)

/-- A class that is there is not declared again. -/
theorem answer_known {name : String} {id : SymbolId} (known : t.findClass? name = some id) :
    t.answer (.ofClass name) = (t, .ok id) := by
  rw [answer, internClass, known]
  rfl

/-- What a table does with a request is one of the things that it can do. -/
theorem answered (t : SymbolTable) (r : Request) :
    t.Answered r (t.answer r).1 (t.answer r).2 := by
  cases r with
  | localVar | field | method => exact .declared rfl rfl (fun _ h => absurd h (by simp))
  | tryLocalVar name type =>
    by_cases room : t.size < SymbolId.count
    · simp only [answer, addVariable?, if_pos room]
      exact .declared rfl rfl (fun _ h => absurd h (by simp))
    · simp only [answer, addVariable?, if_neg room]
      exact .refused (Nat.le_of_not_gt room)
  | ofClass name =>
    cases known : t.findClass? name with
    | some id =>
      rw [answer_known known]
      exact .known known
    | none =>
      simp only [answer, internClass, known]
      refine .declared rfl rfl ?_
      intro name' same
      obtain rfl := Request.ofClass.inj same
      exact known

/-- A request only adds symbols. -/
theorem Answered.extends {a : Except SymbolTableFull SymbolId} (h : t.Answered r t' a) :
    t.symbols <+: t'.symbols := by
  cases h with
  | declared symbols => exact ⟨_, symbols.symm⟩
  | known | refused => exact List.prefix_rfl

/-- A request adds one symbol at most. -/
theorem Answered.size_le {a : Except SymbolTableFull SymbolId} (h : t.Answered r t' a) :
    t'.size ≤ t.size + 1 := by
  cases h with
  | declared symbols =>
    rw [size, symbols, List.length_append]
    exact Nat.le_refl _
  | known | refused => exact Nat.le_succ _

/-- Symbols stay where they are. -/
theorem get?_of_prefix (h : t.symbols <+: t'.symbols) {id : SymbolId} {s : Symbol}
    (hs : t.get? id = some s) : t'.get? id = some s := by
  obtain ⟨added, h⟩ := h
  have bound : id < t.symbols.length := (List.getElem?_eq_some_iff.1 hs).1
  rw [get?, ← h, List.getElem?_append_left bound]
  exact hs

/-- What is found once a new symbol is declared: the class that was asked for, and the classes that
were found before. -/
theorem findClass?_declared (classes : t'.classes = r.found t.size ++ t.classes)
    (fresh : ∀ name, r = .ofClass name → t.findClass? name = none) (name : String)
    (id : SymbolId) :
    t'.findClass? name = some id ↔
      t.findClass? name = some id ∨ r = .ofClass name ∧ t.size = id := by
  rw [findClass?, classes]
  cases r with
  | localVar | tryLocalVar | field | method => simp [Request.found, findClass?]
  | ofClass asked =>
    have none_found : t.findClass? asked = none := fresh asked rfl
    by_cases same : asked = name
    · subst same
      simp [Request.found, none_found]
    · simp [Request.found, findClass?, List.lookup_cons, beq_eq_false_iff_ne.2 (Ne.symm same), same]

/-- What a table says about the requests that it has answered. -/
structure Records (t : SymbolTable) (log : List Entry) : Prop where
  /-- A symbol has its index as its id. -/
  index : ∀ (i : ℕ) (s : Symbol), t.symbols[i]? = some s → s.id = i
  /-- An id is that of the symbol that it was given for. -/
  given : ∀ r id, (r, .ok id) ∈ log → t.get? id = some { r.symbol with id }
  /-- A class is found under the id that was given for it, if it was asked for. -/
  found : ∀ name id, t.findClass? name = some id ↔ (.ofClass name, .ok id) ∈ log
  /-- Only a full table refuses requests, and it does not refuse classes. -/
  refused : ∀ r e, (r, .error e) ∈ log →
    SymbolId.count ≤ t.size ∧ ∃ name type, r = .tryLocalVar name type

/-- The empty table has answered nothing. -/
theorem records_empty : empty.Records [] where
  index i s h := absurd h (by simp [empty])
  given r id h := absurd h List.not_mem_nil
  found name id := by simp [findClass?, empty]
  refused r e h := absurd h List.not_mem_nil

/-- A table that has declared one more symbol. -/
theorem Records.declared (h : t.Records log)
    (symbols : t'.symbols = t.symbols ++ [{ r.symbol with id := t.size }])
    (classes : t'.classes = r.found t.size ++ t.classes)
    (fresh : ∀ name, r = .ofClass name → t.findClass? name = none) :
    t'.Records (log ++ [(r, .ok t.size)]) where
  index i s hs := by
    rw [symbols] at hs
    by_cases old : i < t.symbols.length
    · rw [List.getElem?_append_left old] at hs
      exact h.index i s hs
    · rw [List.getElem?_append_right (Nat.le_of_not_gt old), List.getElem?_singleton] at hs
      split at hs
      · obtain rfl := Option.some.inj hs
        show t.symbols.length = i
        omega
      · exact absurd hs (by simp)
  given r' id mem := by
    rcases List.mem_append.1 mem with mem | new
    · exact get?_of_prefix ⟨_, symbols.symm⟩ (h.given r' id mem)
    · obtain ⟨rfl, rfl⟩ : r' = r ∧ id = t.size := by simpa using new
      rw [get?, symbols]
      exact List.getElem?_concat_length
  found name id := by
    rw [findClass?_declared classes fresh, h.found, List.mem_append, List.mem_singleton]
    simp [eq_comm]
  refused r' e mem := by
    rcases List.mem_append.1 mem with mem | new
    · obtain ⟨full, variable_asked⟩ := h.refused r' e mem
      refine ⟨Nat.le_trans full ?_, variable_asked⟩
      rw [size, size, symbols, List.length_append]
      exact Nat.le_add_right _ _
    · exact absurd new (by simp)

/-- A table that has answered one more request. -/
theorem Records.answered {a : Except SymbolTableFull SymbolId} (h : t.Records log)
    (answered : t.Answered r t' a) : t'.Records (log ++ [(r, a)]) := by
  cases answered with
  | declared symbols classes fresh => exact h.declared symbols classes fresh
  | @known name id known =>
    -- the entry is there already
    have same (e : Entry) : e ∈ log ++ [(.ofClass name, .ok id)] ↔ e ∈ log := by
      rw [List.mem_append, List.mem_singleton]
      refine or_iff_left_of_imp ?_
      rintro rfl
      exact (h.found name id).1 known
    constructor
    · exact h.index
    · intro r id mem
      exact h.given r id ((same _).1 mem)
    · intro name id
      rw [h.found, same]
    · intro r e mem
      exact h.refused r e ((same _).1 mem)
  | @refused name type full =>
    -- the entry carries no id
    have same (r : Request) (id : SymbolId) :
        (r, .ok id) ∈ log ++ [(.tryLocalVar name type, .error ⟨t.size⟩)] ↔ (r, .ok id) ∈ log := by
      simp
    constructor
    · exact h.index
    · intro r id mem
      exact h.given r id ((same r id).1 mem)
    · intro name id
      rw [h.found, same]
    · intro r e mem
      rcases List.mem_append.1 mem with mem | new
      · exact h.refused r e mem
      · obtain ⟨rfl, -⟩ : r = .tryLocalVar name type ∧ e = ⟨t.size⟩ := by simpa using new
        exact ⟨full, name, type, rfl⟩

/-! ### A run -/

/-- A run goes on with one more request. -/
theorem run_concat (rs : List Request) (r : Request) :
    run (rs ++ [r]) =
      (((run rs).1.answer r).1, (run rs).2 ++ [(r, ((run rs).1.answer r).2)]) := by
  simp [run]

/-- A run answers the requests in order. -/
theorem log_fst (rs : List Request) : (run rs).2.map Prod.fst = rs := by
  induction rs using List.reverseRecOn with
  | nil => rfl
  | append_singleton rs r ih => rw [run_concat, List.map_append, ih]; rfl

/-- After every run, the table records what it has answered. -/
theorem records_run (rs : List Request) : (run rs).1.Records (run rs).2 := by
  induction rs using List.reverseRecOn with
  | nil => exact records_empty
  | append_singleton rs r ih =>
    rw [run_concat]
    exact ih.answered (answered _ r)

/-- A run has no more symbols than requests. -/
theorem size_run_le (rs : List Request) : (run rs).1.size ≤ rs.length := by
  induction rs using List.reverseRecOn with
  | nil => exact Nat.le_refl 0
  | append_singleton rs r ih =>
    rw [run_concat, List.length_append]
    exact Nat.le_trans (answered _ r).size_le (Nat.succ_le_succ ih)

/-- In a run of no more requests than there are ids, whatever is given is an id. -/
theorem lt_count_of_mem_log {rs : List Request} (few : rs.length ≤ SymbolId.count) {r : Request}
    {id : SymbolId} (mem : (r, .ok id) ∈ (run rs).2) : id < SymbolId.count := by
  have given := (records_run rs).given r id mem
  have inside : id < (run rs).1.size := (List.getElem?_eq_some_iff.1 given).1
  exact Nat.lt_of_lt_of_le inside (Nat.le_trans (size_run_le rs) few)

/-- What a run gives stays while the run goes on. -/
theorem run_prefix {front rs : List Request} (h : front <+: rs) :
    (run front).1.symbols <+: (run rs).1.symbols ∧ (run front).2 <+: (run rs).2 := by
  induction rs using List.reverseRecOn with
  | nil =>
    obtain rfl := List.prefix_nil.1 h
    exact ⟨List.prefix_rfl, List.prefix_rfl⟩
  | append_singleton rs r ih =>
    rcases List.prefix_concat_iff.1 h with rfl | earlier
    · exact ⟨List.prefix_rfl, List.prefix_rfl⟩
    · obtain ⟨symbols, log⟩ := ih earlier
      rw [run_concat]
      exact ⟨symbols.trans (answered _ r).extends, log.trans (List.prefix_append _ _)⟩

/-- After any requests for locals, fields, methods and classes from the empty table, with `log` the
requests and what was answered: symbols have their indices as ids, earlier ids keep their symbols,
and no request is refused before the table is full.  A class is found exactly if it was asked for,
whatever its name is.  What is found is the symbol of the class, asking again gives the same id and
adds nothing, and different classes have different ids. -/
theorem run_interns (rs : List Request) :
    let (t, log) := run rs
    log.map Prod.fst = rs ∧
    (∀ (i : ℕ) (s : Symbol), t.symbols[i]? = some s → s.id = i) ∧
    (∀ front, front <+: rs → (run front).2 <+: log ∧
      ∀ id s, (run front).1.get? id = some s → t.get? id = some s) ∧
    (∀ r id, (r, .ok id) ∈ log → t.get? id = some { r.symbol with id }) ∧
    (t.size < SymbolId.count → ∀ entry ∈ log, ∃ id, entry.2 = .ok id) ∧
    (∀ name id, t.findClass? name = some id ↔ (.ofClass name, .ok id) ∈ log) ∧
    (∀ name, (∃ id, t.findClass? name = some id) ↔ .ofClass name ∈ rs) ∧
    (∀ name id, t.findClass? name = some id →
      (∃ s, t.get? id = some s ∧ s.kind = .type ∧ s.type = .ofClass name ∧
        s.qualifiedName = name) ∧
      t.answer (.ofClass name) = (t, .ok id)) ∧
    ∀ name name' id, t.findClass? name = some id → t.findClass? name' = some id →
      name = name' := by
  have records := records_run rs
  have order := log_fst rs
  have symbol_of_found (name : String) (id : SymbolId)
      (found : (run rs).1.findClass? name = some id) :
      (run rs).1.get? id = some { classSymbol name with id } :=
    records.given (.ofClass name) id ((records.found name id).1 found)
  refine ⟨order, records.index, ?_, records.given, ?_, records.found, ?_, ?_, ?_⟩
  · intro front earlier
    obtain ⟨symbols, log⟩ := run_prefix earlier
    exact ⟨log, fun id s => get?_of_prefix symbols⟩
  · rintro room ⟨r, e | id⟩ mem
    · exact absurd (records.refused r e mem).1 (Nat.not_le_of_gt room)
    · exact ⟨id, rfl⟩
  · intro name
    constructor
    · rintro ⟨id, found⟩
      rw [← order]
      exact List.mem_map_of_mem ((records.found name id).1 found)
    · intro asked
      rw [← order] at asked
      obtain ⟨⟨r, e | id⟩, mem, rfl⟩ := List.mem_map.1 asked
      · obtain ⟨-, _, _, different⟩ := records.refused _ e mem
        exact absurd different (by simp)
      · exact ⟨id, (records.found name id).2 mem⟩
  · intro name id found
    refine ⟨⟨_, symbol_of_found name id found, ?_, ?_, qualifiedName_classSymbol name id⟩,
      answer_known found⟩
    · unfold classSymbol
      split <;> rfl
    · unfold classSymbol
      split <;> rfl
  -- a symbol spells the name that it was asked for, so one symbol is found under one name only
  · intro name name' id found found'
    have same := (symbol_of_found name id found).symm.trans (symbol_of_found name' id found')
    calc name
      _ = Symbol.qualifiedName { classSymbol name with id } :=
        (qualifiedName_classSymbol name id).symm
      _ = Symbol.qualifiedName { classSymbol name' with id } := by rw [Option.some.inj same]
      _ = name' := qualifiedName_classSymbol name' id

end SymbolTable

end JavaRefactor
