import DeskCalc.Double.Arithmetic
import DeskCalc.Double.Bits
import DeskCalc.Double.Text
import DeskCalc.Expression.Evaluation
import DeskCalc.Machine
import DeskCalc.Keys
import DeskCalc.Json.Reader
import DeskCalc.Json.Printer
import DeskCalc.Service.Client
import DeskCalc.Service.Startup
import DeskCalc.Product
import DeskCalc.Desktop.Run
import DeskCalc.Main
import DeskCalc.Proofs.Entry.Grammar
import DeskCalc.Proofs.Entry.Typing
import DeskCalc.Proofs.Double.Exact
import DeskCalc.Proofs.Expression.Layout
import DeskCalc.Proofs.Expression.Reading
import DeskCalc.Proofs.Expression.Scanning
import DeskCalc.Proofs.Expression.Terms
import DeskCalc.Proofs.Expression.Alternation
import DeskCalc.Proofs.Expression.Precedence
import DeskCalc.Proofs.Expression.Subtraction
import DeskCalc.Proofs.Entry.Outcome
import DeskCalc.Proofs.Entry.Total
import DeskCalc.Proofs.Expression.Finite
import DeskCalc.Proofs.Double.Integers
import DeskCalc.Proofs.Expression.Integers
import DeskCalc.Proofs.Service.Client
import DeskCalc.Proofs.Expression.FaultPosition
import DeskCalc.Proofs.Service.Checks
import DeskCalc.Proofs.Double.Decimal
import DeskCalc.Proofs.Json.Lexing
import DeskCalc.Proofs.Json.RoundTrip
import DeskCalc.Proofs.Window.Display
import DeskCalc.Proofs.Window.Sessions
import DeskCalc.Proofs.Double.Rounding
import DeskCalc.Proofs.Double.Magnitude
import DeskCalc.Proofs.Expression.Magnitude
import DeskCalc.Proofs.Entry.Limit
import DeskCalc.Proofs.Desktop.Child
import DeskCalc.Proofs.Window.Steps
import DeskCalc.Proofs.Window.InRange
import DeskCalc.Proofs.Double.NearestInteger
import DeskCalc.Proofs.Readout.Coefficient
import DeskCalc.Proofs.Double.Value
import DeskCalc.Proofs.Readout.Notation
import DeskCalc.Proofs.Readout.Accuracy
import DeskCalc.Proofs.Readout.Order
import DeskCalc.Proofs.Entry.Operators
import DeskCalc.Proofs.Entry.Segment
import DeskCalc.Proofs.Window.Unreadable
