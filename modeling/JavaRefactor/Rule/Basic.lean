import JavaRefactor.Template.Block
import JavaRefactor.Template.Expression

/-!
# Rules

A rule has templates for the code to find and at most one for the code to write instead, all
of one kind.  A rule whose replacement asks for it also has a negated form, in which every
template is negated.
-/

namespace JavaRefactor

/-- A template of either kind. -/
inductive Template where
  | expression (t : ExpressionTemplate)
  | block (t : BlockTemplate)

namespace Template

/-- What a template declares. -/
def header : Template → TemplateHeader
  | expression t => t.header
  | block t => t.header

/-- The kind of a template, as messages name it. -/
def kind : Template → String
  | expression _ => "expression"
  | block _ => "block"

/-- The template, if it is one of an expression. -/
def expression? : Template → Option ExpressionTemplate
  | expression t => some t
  | block _ => none

/-- The template, if it is one of statements. -/
def block? : Template → Option BlockTemplate
  | expression _ => none
  | block t => some t

end Template

/-- The templates of a rule: alternatives for the code to find, and the code to write. -/
inductive RuleBody where
  | expression (before : List ExpressionTemplate) (after : Option ExpressionTemplate)
  | block (before : List BlockTemplate) (after : Option BlockTemplate)

/-- A rule. -/
structure RefactoringRule where
  /-- The qualified name of the class that declares the templates. -/
  name : String
  body : RuleBody
  options : TemplateOptions

/-- Why templates do not make a rule. -/
inductive RuleError where
  | noBeforeTemplate (rule : String)
  | mixedKinds (rule expected found : String)
  | nonBooleanNegation (result : TypePattern)

/-- What a message says about templates that do not make a rule. -/
def RuleError.message : RuleError → String
  | noBeforeTemplate rule => "no before-template found in `" ++ rule ++ "`"
  | mixedKinds rule expected found =>
    "templates of `" ++ rule ++ "` must all be " ++ expected ++ " templates, found a " ++ found
      ++ " one"
  | nonBooleanNegation result =>
    "cannot negate a template whose result type is `" ++ result.describe ++ "`"

namespace RuleBody

/-- Whether the rule is about expressions. -/
def isExpression : RuleBody → Bool
  | expression .. => true
  | block .. => false

/-- The templates of the code to find. -/
def before : RuleBody → List Template
  | expression before _ => before.map .expression
  | block before _ => before.map .block

/-- The template of the code to write. -/
def after? : RuleBody → Option Template
  | expression _ after => after.map .expression
  | block _ after => after.map .block

/-- The body that templates of one kind make. -/
def ofTemplates (before : List Template) (after : Option Template) : RuleBody :=
  match before with
  | .block _ :: _ => block (before.filterMap Template.block?) (after.bind Template.block?)
  | _ =>
    expression (before.filterMap Template.expression?) (after.bind Template.expression?)

/-- The negated body, if the code to write asks for one. -/
def negation : RuleBody → Except NonBooleanResult (Option RuleBody)
  | expression before (some after) =>
    if after.header.options.alsoNegation then do
      let before ← before.mapM ExpressionTemplate.negation
      return some (expression before (some (← after.negation)))
    else .ok none
  | _ => .ok none

end RuleBody

namespace RefactoringRule

/-- Components of a name without those up to the first capitalized one, if there is one and
something follows it. -/
def belowFirstUpper? : List String → Option (List String)
  | [] => none
  | [_] => none
  | p :: ps => if Dotted.startsUpper p then some ps else belowFirstUpper? ps

/-- The name that reports show: what stands below the top-level class, or the whole name. -/
def displayName (r : RefactoringRule) : String :=
  match belowFirstUpper? (Dotted.components r.name) with
  | some parts => "_".intercalate parts
  | none => r.name

/-- How the replacement refers to classes. -/
def importPolicy (r : RefactoringRule) : ImportPolicy :=
  (r.body.after?.bind fun t => t.header.options.importPolicy).getD .topLevel

/-- Whether matches that contain comments are rejected, which every rule does. -/
def rejectsComments (_ : RefactoringRule) : Bool := true

/-- The rule of some templates, if they are all of one kind. -/
def ofTemplates (name : String) (before : List Template) (after : Option Template)
    (options : TemplateOptions) : Except RuleError RefactoringRule :=
  match before with
  | [] => .error (.noBeforeTemplate name)
  | first :: _ =>
    match (before ++ after.toList).find? fun t => t.kind != first.kind with
    | some other => .error (.mixedKinds name first.kind other.kind)
    | none => .ok ⟨name, .ofTemplates before after, options⟩

/-- The rules that some templates make: the rule itself, and its negated form if it has
one. -/
def create (name : String) (before : List Template) (after : Option Template)
    (options : TemplateOptions) : Except RuleError (List RefactoringRule) := do
  let rule ← ofTemplates name before after options
  match rule.body.negation with
  | .ok negated => return rule :: negated.toList.map fun body => { rule with body }
  | .error e => throw (.nonBooleanNegation e.type)

end RefactoringRule

end JavaRefactor
