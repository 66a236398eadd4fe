import FrontEnd.Token.Cursor
import FrontEnd.Tree.Print
import FrontEnd.Lowering
import FrontEnd.Main
import FrontEnd.Proofs.ExpressionReading
import FrontEnd.Proofs.BodyReading
import FrontEnd.Proofs.ParenBalance
import FrontEnd.Proofs.RoundTrip
import FrontEnd.Proofs.ScanLayout
import FrontEnd.Proofs.Excerpts
import FrontEnd.Proofs.Citations
import FrontEnd.Proofs.Composition
import FrontEnd.Proofs.Layout
import FrontEnd.Proofs.Recognition
import FrontEnd.Proofs.Writing
import FrontEnd.Proofs.Checked
import FrontEnd.Proofs.CheckedExpressions
import FrontEnd.Proofs.CheckedBodies
import FrontEnd.Proofs.CheckedPrograms
import FrontEnd.Proofs.ScopeHistory
import FrontEnd.Proofs.Visibility
import FrontEnd.Proofs.CallArguments
import FrontEnd.Proofs.Precedence
import FrontEnd.Proofs.CallFree
import FrontEnd.Proofs.RangeLocality
import FrontEnd.Proofs.HeadRecognition
import FrontEnd.Proofs.CheckOrder
import FrontEnd.Proofs.BracketMatching
import FrontEnd.Proofs.LiteralRange
import FrontEnd.Proofs.ExpressionExtent
