import JavaRefactor.Proofs.Hierarchy.CarriedConversion
import JavaRefactor.Proofs.Hierarchy.CoreClasses
import JavaRefactor.Proofs.Template.Accepted
import JavaRefactor.Proofs.Template.TypeCheck

/-!
# The types of repeated arguments

Of the expressions that a repeated argument stands for, only the least upper bound of their types
is compared with the declared type.  What the bound converts to, each of the expressions converts
to as far as the conversion carries over (`TemplateHeader.RepeatedWellTyped`).
-/

namespace JavaRefactor

namespace TemplateHeader

variable {h : TemplateHeader} {table : ClassTable} {a b : Bindings}

/-- For every repeated argument that stands for some expressions, the bound of their types is
assignable to the declared type under the bindings, and so is the type of each expression to which
this conversion carries over. -/
def RepeatedWellTyped (h : TemplateHeader) (table : ClassTable) (b : Bindings) : Prop :=
  ∀ name declared e es, (name, declared) ∈ h.args → b.free.lookup name = none →
    b.repeated.lookup name = some (e :: es) →
      ∃ type bound, declared.expand table b = .ok type ∧
        table.lub ((e :: es).map (·.type)) = some bound ∧
        table.isAssignable bound type (!h.options.noAutoboxing) = true ∧
        ∀ x ∈ e :: es,
          table.CarriesOver (!h.options.noAutoboxing) ((e :: es).map (·.type)) bound type x.type →
            table.isAssignable x.type type (!h.options.noAutoboxing) = true

/-- What an accepted check says about repeated arguments. -/
theorem repeatedWellTyped_of_typeCheck {result : Option (TypePattern × JavaType)}
    (hygienic : h.Hygienic .object a) (accepted : h.typeCheck table a result = some b) :
    h.RepeatedWellTyped table b := by
  intro name declared e es mem single captured
  obtain ⟨first, arguments, found, -, harguments, names, assignable, inferred, -⟩ :=
    assignable_of_typeCheck accepted
  obtain ⟨free, repeated, -⟩ := bindInferred_eq_some inferred
  rw [free] at single
  rw [repeated] at captured
  obtain ⟨type, bound, htype, hbound, hpair⟩ :=
    mem_argumentTypes_repeated harguments mem single captured
  have converts := assignable (type, bound) (List.mem_append_right first hpair)
  have declaredType : declared ∈ TypePattern.object :: h.args.map Prod.snd :=
    List.mem_cons_of_mem _ (List.mem_map.mpr ⟨_, mem, rfl⟩)
  exact ⟨_, bound, expand_final hygienic names inferred declaredType htype, hbound, converts,
    fun x hx carries => ClassTable.isAssignable_of_carriesOver hbound (List.mem_map_of_mem hx)
      converts carries⟩

end TemplateHeader

/-- The repeated arguments of an accepted match, of an expression or of a run of statements.  If no
type variable of the program is taken for a type parameter, the bound of what a repeated argument
stands for is assignable to the declared type under the final bindings, and so is each expression
to which this conversion carries over. -/
theorem match_repeatedWellTyped :
    (∀ (t : ExpressionTemplate) (c : MatchContext) (target : Expr) (b : Bindings),
      t.match? c target = some b →
        ∃ a, t.pattern.unify c.unit.symbols target .empty = some a ∧
          (t.header.Hygienic .object a → t.header.RepeatedWellTyped c.table b)) ∧
    ∀ (t : BlockTemplate) (c : MatchContext) (run : List Stmt) (b : Bindings),
      t.matchRun? c run = some b →
        ∃ a, StmtPattern.unifyEach c.unit.symbols t.stmts run .empty = some a ∧
          (t.header.Hygienic .object a → t.header.RepeatedWellTyped c.table b) := by
  refine ⟨fun t c target b h => ?_, fun t c run b h => ?_⟩
  · obtain ⟨a, formed, -, checked⟩ := ExpressionTemplate.match?_eq_some_iff.mp h
    exact ⟨a, formed, fun hygienic =>
      TemplateHeader.repeatedWellTyped_of_typeCheck hygienic checked⟩
  · obtain ⟨a, _, formed, -, -, checked⟩ := BlockTemplate.matchRun?_eq_some_iff.mp h
    exact ⟨a, formed, fun hygienic =>
      TemplateHeader.repeatedWellTyped_of_typeCheck hygienic checked⟩

/-! ### Some captured numbers -/

/-- A table of two kinds of numbers. -/
private def numberTable : ClassTable :=
  ⟨[⟨"java.lang.Integer", [], [.ofClass "java.lang.Number"], false⟩,
    ⟨"java.lang.Double", [], [.ofClass "java.lang.Number"], false⟩,
    ⟨"java.lang.Number", [], [], false⟩]⟩

/-- A template of calls `f(xs)`, where `xs` stands for any number of arguments of some type. -/
private def callTemplate (type : TypePattern) : BlockTemplate where
  header := { options := {}, typeParams := .empty, args := [("xs", type)] }
  stmts := [.expr (.call (.free "f") [.repeated "xs"])]

/-- The variable `x` of some type, and the method `f`, in code. -/
private def variableOf (type : JavaType) : Expr := .ident (.ofType type) "x" none

private def calledMethod : Expr := .ident (.ofType (.method [] (.primitive .void))) "f" none

/-- A call of `f` with some arguments, as a statement. -/
private def callStmts (args : List Expr) : List Stmt :=
  [.expr .synthetic (.call (.ofType (.primitive .void)) calledMethod args)]

/-- What the form of a call binds in the template. -/
private def argumentBindings (args : List Expr) : Bindings :=
  { free := [("f", calledMethod)], repeated := [("xs", args)] }

/-- A `byte` and an `int` have the bound `int`, which is boxed to `Integer`; a `byte` is not. -/
theorem matchRun?_repeated_widened :
    let c : MatchContext := ⟨CompilationUnit.ofDeclarations none [] [] .empty, numberTable⟩
    let args := [variableOf (.primitive .byte), variableOf (.primitive .int)]
    (callTemplate (.ofClass "java.lang.Integer")).matchRun? c (callStmts args) =
        some (argumentBindings args) ∧
      (TypePattern.ofClass "java.lang.Integer").expand c.table (argumentBindings args) =
        .ok (.ofClass "java.lang.Integer") ∧
      c.table.isAssignable (.primitive .byte) (.ofClass "java.lang.Integer") true = false := by
  intro c args
  refine ⟨by rfl, by rfl, by decide +kernel⟩

/-- A table of numbers is regular. -/
private theorem regular_numberTable : numberTable.Regular numberTable.arity :=
  ClassTable.regular_of_isRegularClass (by decide +kernel) (by decide +kernel)

/-- The types of an instance of `Double` and an `int` lead to ground types. -/
private theorem hasGroundMembers_numbers : ClassTable.HasGroundMembers numberTable.arity
    [.ofClass "java.lang.Double", .primitive .int] where
  values := by decide
  ground := by decide +kernel
  coherent := by decide

/-- A call with an instance of `Double` and an `int`, which are both numbers. -/
theorem match_repeatedWellTyped_numbers :
    let c : MatchContext := ⟨CompilationUnit.ofDeclarations none [] [] .empty, numberTable⟩
    let args := [variableOf (.ofClass "java.lang.Double"), variableOf (.primitive .int)]
    let t := callTemplate (.ofClass "java.lang.Number")
    t.matchRun? c (callStmts args) = some (argumentBindings args) ∧
      t.header.Hygienic .object (argumentBindings args) ∧
      t.header.RepeatedWellTyped c.table (argumentBindings args) ∧
      c.table.isAssignable (.primitive .int) (.ofClass "java.lang.Number") true = true := by
  intro c args t
  have bound : c.table.lub (args.map (·.type)) = some (.ofClass "java.lang.Number") := by
    decide +kernel
  have number : (TypePattern.ofClass "java.lang.Number").expand c.table (argumentBindings args) =
      .ok (.ofClass "java.lang.Number") := rfl
  have arguments : TemplateHeader.argumentTypes c.table (argumentBindings args) t.header.args =
      some [(.ofClass "java.lang.Number", .ofClass "java.lang.Number")] := by
    change ((c.table.lub (args.map (·.type))).bind fun found => _) = _
    rw [bound]
    rfl
  have formed : StmtPattern.unifyEach c.unit.symbols t.stmts (callStmts args) .empty =
      some (argumentBindings args) := rfl
  have checked : t.header.typeCheck c.table (argumentBindings args) none =
      some (argumentBindings args) :=
    TemplateHeader.typeCheck_eq_some_iff.mpr
      ⟨[], _, ⟨[.ofClass "java.lang.Number"], .primitive .void, []⟩, rfl, arguments, by rfl, rfl,
        fun _ h => absurd h List.not_mem_nil⟩
  have accepted : t.matchRun? c (callStmts args) = some (argumentBindings args) :=
    BlockTemplate.matchRun?_eq_some_iff.mpr ⟨_, _, formed, rfl, by rfl, checked⟩
  have none_left : t.header.unbound (argumentBindings args) = [] := rfl
  have hygienic : t.header.Hygienic .object (argumentBindings args) :=
    ⟨fun _ h => absurd (none_left ▸ h) List.not_mem_nil,
      fun _ h => absurd (none_left ▸ h) List.not_mem_nil⟩
  obtain ⟨_, same, wellTyped⟩ := match_repeatedWellTyped.2 t c _ _ accepted
  obtain rfl := Option.some.inj (formed.symm.trans same)
  have typed := wellTyped hygienic
  obtain ⟨type, _, htype, hbound, -, each⟩ :=
    typed "xs" _ _ _ List.mem_cons_self rfl rfl
  obtain rfl := Except.ok.inj (number.symm.trans htype)
  obtain rfl := Option.some.inj (bound.symm.trans hbound)
  refine ⟨accepted, hygienic, typed, each (variableOf (.primitive .int)) (by simp) ?_⟩
  exact .reference regular_numberTable (by decide +kernel) hasGroundMembers_numbers
    (by decide +kernel) rfl rfl (.inr rfl)

end JavaRefactor
