import RuleExpr.Journal
import RuleExpr.Session
import RuleExpr.Tree.InPlace
import RuleExpr.Evaluation.Free
import RuleExpr.Proofs.Evaluation.Lifting
import RuleExpr.Proofs.Evaluation.Fuel
import RuleExpr.Proofs.Evaluation.Ceiling
import RuleExpr.Proofs.Lexeme.Shape
import RuleExpr.Proofs.Lexeme.Cutting
import RuleExpr.Proofs.Lexeme.Regex
import RuleExpr.Proofs.Lexeme.Rules
import RuleExpr.Proofs.Lexeme.Covering
import RuleExpr.Proofs.Lexeme.Locality
import RuleExpr.Proofs.Lexeme.Breaks
import RuleExpr.Proofs.Printing.Lexemes
import RuleExpr.Proofs.Binary64.Rank
import RuleExpr.Proofs.Binary64.Shortest
import RuleExpr.Proofs.Binary64.Layout
import RuleExpr.Proofs.Calendar.IsoText
import RuleExpr.Proofs.Tree.Gather
import RuleExpr.Proofs.Tree.Descent
import RuleExpr.Proofs.Tree.Balance
import RuleExpr.Proofs.Tree.Consumption
import RuleExpr.Proofs.Tree.Faults
import RuleExpr.Proofs.Evaluation.BuiltinForms
import RuleExpr.Proofs.Evaluation.Termination
import RuleExpr.Proofs.Evaluation.Selection
import RuleExpr.Proofs.Evaluation.Settling
import RuleExpr.Proofs.Evaluation.Cases
import RuleExpr.Proofs.Evaluation.Constants
import RuleExpr.Proofs.Evaluation.Purity
import RuleExpr.Proofs.Evaluation.Connectives
import RuleExpr.Proofs.Scope.Merge
import RuleExpr.Proofs.Evaluation.Merging
import RuleExpr.Proofs.Evaluation.Trace
import RuleExpr.Proofs.Evaluation.Separation
import RuleExpr.Proofs.Printing.Leaves
import RuleExpr.Proofs.Printing.Trees
import RuleExpr.Proofs.Printing.Flatten
import RuleExpr.Proofs.Tree.Flatten
import RuleExpr.Proofs.Tree.Nesting
import RuleExpr.Proofs.Printing.Built
import RuleExpr.Proofs.Printing.DateTimes
import RuleExpr.Proofs.Printing.Agreement
import RuleExpr.Proofs.Session.History
import RuleExpr.Proofs.Value.DateTimes
import RuleExpr.Proofs.Value.Equality
import RuleExpr.Proofs.Value.Order
import RuleExpr.Proofs.Value.Trichotomy
import RuleExpr.Proofs.Value.Extreme
import RuleExpr.Proofs.Binary64.Integers
import RuleExpr.Proofs.Binary64.Rational
import RuleExpr.Proofs.Numeral.Grammar
import RuleExpr.Proofs.Numeral.Leading
import RuleExpr.Proofs.Number.Rounding
import RuleExpr.Proofs.Number.Coercion
import RuleExpr.Proofs.Number.Division
import RuleExpr.Proofs.Registry.Arity
import RuleExpr.Proofs.Numeral.Grouped
import RuleExpr.Proofs.Setting.Grammar
import RuleExpr.Proofs.Scope.History
