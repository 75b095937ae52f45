import Liquid.Main
import Liquid.Proofs.Arrangement.Tree
import Liquid.Proofs.Expr.Parse
import Liquid.Proofs.Token.Modes
import Liquid.Proofs.Value.Equality
import Liquid.Proofs.Render.Agreement
import Liquid.Proofs.Arrangement.Control
import Liquid.Proofs.Render.Scope
import Liquid.Proofs.Scope.History
import Liquid.Proofs.Filter.Integer
import Liquid.Proofs.Template.Fault
import Liquid.Proofs.Template.Append
import Liquid.Proofs.Value.Datum
import Liquid.Proofs.Expr.Number
import Liquid.Proofs.Render.Cycle
import Liquid.Proofs.Render.Failure
import Liquid.Proofs.Render.Visit
import Liquid.Proofs.Render.Grid
import Liquid.Proofs.Tag.Header
import Liquid.Proofs.Render.Selection
import Liquid.Proofs.Scope.Lookup
import Liquid.Proofs.Render.Nesting
import Liquid.Proofs.Arrangement.Refusal
import Liquid.Proofs.Template.Refusal
import Liquid.Proofs.Expr.Naming
import Liquid.Proofs.Value.Sequence
import Liquid.Proofs.Expr.Path
import Liquid.Proofs.Render.Unplaced
import Liquid.Proofs.Tag.Alternative
import Liquid.Proofs.Render.Conditional
import Liquid.Proofs.Render.Choice
import Liquid.Proofs.Token.Comment
import Liquid.Proofs.Template.Raw
import Liquid.Proofs.Token.Position
import Liquid.Proofs.Filter.Remainder
import Liquid.Proofs.Filter.Rounding
import Liquid.Proofs.Filter.Written
import Liquid.Proofs.Filter.Sorting
import Liquid.Proofs.Filter.Distinct
import Liquid.Proofs.Filter.Matching
import Liquid.Proofs.Html.Escape
import Liquid.Proofs.Html.Tags
import Liquid.Proofs.Filter.Encoding
import Liquid.Proofs.Filter.Inverse
import Liquid.Proofs.Filter.Splitting
import Liquid.Proofs.Filter.Window
import Liquid.Proofs.Filter.Truncation
import Liquid.Proofs.Filter.Replacement
import Liquid.Proofs.Operator
import Liquid.Proofs.Render.Capture
import Liquid.Proofs.Template.Variable
import Liquid.Proofs.Arrangement.Handing
import Liquid.Proofs.Filter.Binding
import Liquid.Proofs.Expr.Print
import Liquid.Proofs.Expr.Rule
import Liquid.Proofs.Expr.Partition
import Liquid.Proofs.Template.Single
import Liquid.Proofs.Template.Display
import Liquid.Proofs.Command
