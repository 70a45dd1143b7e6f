import Scriptlet.Bindings
import Scriptlet.CommandLine
import Scriptlet.CommandLine.Conventions
import Scriptlet.CommandLine.Request
import Scriptlet.Decimal.Exact
import Scriptlet.Decimal.Notation
import Scriptlet.Decimal.Numeral
import Scriptlet.Decimal.Shortest
import Scriptlet.Disk
import Scriptlet.Excerpt
import Scriptlet.Expr
import Scriptlet.Fault
import Scriptlet.Given
import Scriptlet.Machine
import Scriptlet.Main
import Scriptlet.Operator
import Scriptlet.Position
import Scriptlet.Program
import Scriptlet.Program.Parse
import Scriptlet.Program.Progress
import Scriptlet.Program.Rejection
import Scriptlet.Prompt
import Scriptlet.Proofs.Assignments
import Scriptlet.Proofs.Batches
import Scriptlet.Proofs.Bitwise
import Scriptlet.Proofs.Blame
import Scriptlet.Proofs.BlankLines
import Scriptlet.Proofs.Codes
import Scriptlet.Proofs.Columns
import Scriptlet.Proofs.Comparison
import Scriptlet.Proofs.Cutting
import Scriptlet.Proofs.Dialogue
import Scriptlet.Proofs.Dispatch
import Scriptlet.Proofs.Doubles
import Scriptlet.Proofs.Equivariance
import Scriptlet.Proofs.Failing
import Scriptlet.Proofs.Frame
import Scriptlet.Proofs.Grammar
import Scriptlet.Proofs.Guards
import Scriptlet.Proofs.Handles
import Scriptlet.Proofs.Identity
import Scriptlet.Proofs.Ledger
import Scriptlet.Proofs.Likeness
import Scriptlet.Proofs.LineEnds
import Scriptlet.Proofs.Marking
import Scriptlet.Proofs.Nesting
import Scriptlet.Proofs.Numerals
import Scriptlet.Proofs.Options
import Scriptlet.Proofs.Parsers
import Scriptlet.Proofs.Placement
import Scriptlet.Proofs.Pointing
import Scriptlet.Proofs.Purity
import Scriptlet.Proofs.Reader
import Scriptlet.Proofs.Recognition
import Scriptlet.Proofs.Relocation
import Scriptlet.Proofs.Rendering
import Scriptlet.Proofs.Rereading
import Scriptlet.Proofs.Rounding
import Scriptlet.Proofs.Rounds
import Scriptlet.Proofs.Runs
import Scriptlet.Proofs.Safety
import Scriptlet.Proofs.Scanning
import Scriptlet.Proofs.Scopes
import Scriptlet.Proofs.Seam
import Scriptlet.Proofs.Sequencing
import Scriptlet.Proofs.Shapes
import Scriptlet.Proofs.Shortest
import Scriptlet.Proofs.Simulation
import Scriptlet.Proofs.Spelling
import Scriptlet.Proofs.Stages
import Scriptlet.Proofs.Tiling
import Scriptlet.Proofs.Tracing
import Scriptlet.Proofs.Trails
import Scriptlet.Proofs.Transcript
import Scriptlet.Proofs.Verbosity
import Scriptlet.Proofs.ViablePrefix
import Scriptlet.Proofs.Views
import Scriptlet.Proofs.Visibility
import Scriptlet.Proofs.Walks
import Scriptlet.Report
import Scriptlet.Runner
import Scriptlet.ScopeTree
import Scriptlet.Session
import Scriptlet.Stmt
import Scriptlet.Text.Blank
import Scriptlet.Text.Colour
import Scriptlet.Text.Digit
import Scriptlet.Text.Field
import Scriptlet.Text.Lines
import Scriptlet.Text.Quoted
import Scriptlet.Text.Unprinted
import Scriptlet.Token
import Scriptlet.Token.Scan
import Scriptlet.Trace
import Scriptlet.Value
import Scriptlet.Value.Guarded
import Scriptlet.Value.Operation
import Scriptlet.Value.Order
