import ReversePolish.Binary64.Bits
import ReversePolish.Blueprint
import ReversePolish.Json.Writer
import ReversePolish.Main
import ReversePolish.Proofs.Calculator
import ReversePolish.Proofs.Diagnosis
import ReversePolish.Proofs.RoundTrip
import ReversePolish.Service.Respond
import ReversePolish.Session
import ReversePolish.Vocabulary
import ReversePolish.Proofs.Attempt
import ReversePolish.Proofs.LinearForm
import ReversePolish.Proofs.Safety
import ReversePolish.Proofs.Diagram
import ReversePolish.Proofs.StandardInput
import ReversePolish.Proofs.Surfaces
import ReversePolish.Proofs.TwoWalks
import ReversePolish.Proofs.SessionRuns
import ReversePolish.Proofs.DocumentRoundTrip
import ReversePolish.Proofs.LiteralValue
import ReversePolish.Proofs.IntervalValue
import ReversePolish.Proofs.EmptyFlag
import ReversePolish.Proofs.DiagramLayout
import ReversePolish.Proofs.Counts
import ReversePolish.Proofs.TextLength
import ReversePolish.Proofs.SourceOrder
import ReversePolish.Proofs.CanonicalNumber
import ReversePolish.Proofs.Spacing
import ReversePolish.Proofs.SummaryDelivery
import ReversePolish.Proofs.RaggedReading
