import BuilderCalls.Builder
import BuilderCalls.Main
import BuilderCalls.Proofs.Conversion
import BuilderCalls.Proofs.Grammar
import BuilderCalls.Proofs.Number.Nearest
import BuilderCalls.Proofs.Number.Shortest
import BuilderCalls.Proofs.BuiltNode
import BuilderCalls.Proofs.NormalForm
import BuilderCalls.Proofs.Call
import BuilderCalls.Proofs.NormalImage
import BuilderCalls.Proofs.Inversion
import BuilderCalls.Proofs.Soundness
import BuilderCalls.Proofs.Json.Equivalent
import BuilderCalls.Proofs.Verdict
import BuilderCalls.Proofs.Json.Reader
import BuilderCalls.Proofs.Check
import BuilderCalls.Proofs.Refusal
import BuilderCalls.Proofs.Statements
import BuilderCalls.Proofs.Replacement
import BuilderCalls.Proofs.Number.Decimal
import BuilderCalls.Proofs.Number.PlainText
import BuilderCalls.Proofs.Number.JsonText
import BuilderCalls.Proofs.Rendering.Literal
import BuilderCalls.Proofs.Rendering.Reading
import BuilderCalls.Proofs.Call.Encoding
import BuilderCalls.Proofs.FirstFault
import BuilderCalls.Proofs.Alike
import BuilderCalls.Proofs.Spelling
import BuilderCalls.Proofs.NormalReading
import BuilderCalls.Proofs.Json.Lexing
import BuilderCalls.Proofs.Json.Nesting
import BuilderCalls.Proofs.Call.Printed
import BuilderCalls.Proofs.Builder
import BuilderCalls.Proofs.Call.Postorder
import BuilderCalls.Proofs.Effectful
import BuilderCalls.Proofs.BuilderSet
import BuilderCalls.Proofs.Visits
import BuilderCalls.Proofs.Rendering.Lines
import BuilderCalls.Proofs.Settings
import BuilderCalls.Proofs.Printing
import BuilderCalls.Proofs.ConvertCommand
import BuilderCalls.Proofs.Building
import BuilderCalls.Proofs.Rendering.Pattern
import BuilderCalls.Proofs.Walk
import BuilderCalls.Proofs.Following
import BuilderCalls.Proofs.Discovery
import BuilderCalls.Proofs.StatusLines
import BuilderCalls.Proofs.CheckCommand
import BuilderCalls.Proofs.Number.PlainReading
import BuilderCalls.Proofs.CanonicalForm
import BuilderCalls.Proofs.LineDiff
import BuilderCalls.Proofs.Json.Pretty
import BuilderCalls.Proofs.PrintedDifference
import BuilderCalls.Proofs.Cursor
import BuilderCalls.Proofs.Trail
import BuilderCalls.Proofs.Decoration
import BuilderCalls.Proofs.PathText
import BuilderCalls.Proofs.Rendering.Namespace
