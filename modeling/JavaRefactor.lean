import JavaRefactor.Hierarchy.CoreClasses
import JavaRefactor.Pattern.Placeholder
import JavaRefactor.Rule.Scan
import JavaRefactor.Patch.Run
import JavaRefactor.Proofs.Matching.Reversal
import JavaRefactor.Proofs.Unit.Spans
import JavaRefactor.Proofs.Rule.Apart
import JavaRefactor.Proofs.Rule.Tokens
import JavaRefactor.Proofs.Template.TypeCheck
import JavaRefactor.Proofs.Reference.Meaning
import JavaRefactor.Proofs.Hierarchy.Preorder
import JavaRefactor.Proofs.Hierarchy.LeastUpperBound
import JavaRefactor.Proofs.Pattern.Negation
import JavaRefactor.Proofs.Pattern.Involution
import JavaRefactor.Proofs.Pattern.Instances
import JavaRefactor.Proofs.Unit.Rendering
import JavaRefactor.Proofs.Layout.Unambiguous
import JavaRefactor.Proofs.Inference.Reduction
import JavaRefactor.Proofs.Template.Boxing
import JavaRefactor.Proofs.Template.RepeatedArguments
import JavaRefactor.Proofs.Rule.Outermost
import JavaRefactor.Proofs.Rule.Greedy
import JavaRefactor.Proofs.Rule.Replacement
import JavaRefactor.Proofs.Rule.Comments
import JavaRefactor.Proofs.Matching.Variables
import JavaRefactor.Proofs.Matching.Capture
import JavaRefactor.Proofs.Matching.Rematching
import JavaRefactor.Proofs.Matching.Lists
import JavaRefactor.Proofs.Rule.ReverseTernary
import JavaRefactor.Proofs.Rule.Imports
import JavaRefactor.Proofs.Patch.Boundaries
import JavaRefactor.Proofs.Patch.Outcomes
import JavaRefactor.Proofs.Edit.Conflicts
import JavaRefactor.Proofs.Edit.Interleaving
import JavaRefactor.Proofs.Edit.Reordering
import JavaRefactor.Proofs.Patch.Application
import JavaRefactor.Proofs.Patch.FileTree
import JavaRefactor.Proofs.Hierarchy.Questions
import JavaRefactor.Proofs.Inference.Conflict
import JavaRefactor.Proofs.Layout.DanglingElse
import JavaRefactor.Proofs.Layout.Juxtaposition
import JavaRefactor.Proofs.Layout.Parentheses
import JavaRefactor.Proofs.Text.JavaLiteral
import JavaRefactor.Proofs.Symbol.Interning
import JavaRefactor.Proofs.Expansion.Bookkeeping
