import Metrology.Argument.Atoms
import Metrology.Argument.Entries
import Metrology.Argument.Names
import Metrology.Argument.Numbers
import Metrology.Argument.UnitStrings
import Metrology.Collection
import Metrology.Converter
import Metrology.Dimension
import Metrology.Entry
import Metrology.Expression
import Metrology.Fault.Message
import Metrology.Number
import Metrology.Numeral.Literal
import Metrology.Proofs.Expression.Composition
import Metrology.Proofs.Expression.Numbers
import Metrology.Proofs.Expression.Readable
import Metrology.Proofs.Expression.Reading
import Metrology.Proofs.Numeral.Literals
import Metrology.Proofs.Powers.Scan
import Metrology.Proofs.Quantity.Affine
import Metrology.Proofs.Quantity.Bases
import Metrology.Proofs.Quantity.Checked
import Metrology.Proofs.Quantity.Comparison
import Metrology.Proofs.Quantity.Conversions
import Metrology.Proofs.Quantity.Converters
import Metrology.Proofs.Quantity.Dimensions
import Metrology.Proofs.Quantity.Idempotence
import Metrology.Proofs.Quantity.Inverses
import Metrology.Proofs.Quantity.Precision
import Metrology.Proofs.Quantity.Products
import Metrology.Proofs.Quantity.Readings
import Metrology.Proofs.Quantity.Repetition
import Metrology.Proofs.Quantity.RoundTrips
import Metrology.Proofs.Quantity.SingleUnits
import Metrology.Proofs.Quantity.Sums
import Metrology.Proofs.Quantity.Termination
import Metrology.Proofs.Quantity.WellFormed
import Metrology.Proofs.Registry.Consistent
import Metrology.Proofs.Registry.History
import Metrology.Proofs.Registry.Replacement
import Metrology.Proofs.Registry.Written
import Metrology.Proofs.Scalar.Quotients
import Metrology.Proofs.Scalar.Terminating
import Metrology.Proofs.Session.Later
import Metrology.Proofs.Session.Reductions
import Metrology.Proofs.Terms.NormalForm
import Metrology.Proofs.Tokens.Backtracking
import Metrology.Proofs.Workspace.Separated
import Metrology.Proofs.Workspace.Tokenizers
import Metrology.Quantity.Arithmetic
import Metrology.Quantity.Basic
import Metrology.Quantity.Operand
import Metrology.Quantity.Parts
import Metrology.Quantity.Rendering
import Metrology.Registry
import Metrology.Registry.Reduction
import Metrology.Registry.Standard
import Metrology.Registry.UnitText
import Metrology.Registry.Weights
import Metrology.Scalar.Binary
import Metrology.Scalar.Exact
import Metrology.SingleUnit
import Metrology.Sorting
import Metrology.Temperature
import Metrology.Terms
import Metrology.Text.Blank
import Metrology.Text.CombiningClass
import Metrology.Text.Composed
import Metrology.Text.Decomposition
import Metrology.Text.LowerCase
import Metrology.Text.Printable
import Metrology.Text.Quoted
import Metrology.Tokens
import Metrology.Value.Atoms
import Metrology.Value.Equality
import Metrology.Value.Reading
import Metrology.Value.Wording
import Metrology.Workspace
