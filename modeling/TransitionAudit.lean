import TransitionAudit.Main
import TransitionAudit.Proofs.Audit.Disorder
import TransitionAudit.Proofs.Audit.Evidence
import TransitionAudit.Proofs.Audit.Layout
import TransitionAudit.Proofs.Audit.Report
import TransitionAudit.Proofs.Audit.Verdict
import TransitionAudit.Proofs.Clock.Bounds
import TransitionAudit.Proofs.Clock.Coherence
import TransitionAudit.Proofs.Command.Reports
import TransitionAudit.Proofs.Command.Status
import TransitionAudit.Proofs.Component.Resolution
import TransitionAudit.Proofs.Data.Clash
import TransitionAudit.Proofs.Data.Overlay
import TransitionAudit.Proofs.Rule.EndState
import TransitionAudit.Proofs.Rule.Heading
import TransitionAudit.Proofs.Rule.Inheritance
import TransitionAudit.Proofs.Rule.Redrawn
import TransitionAudit.Proofs.Rule.Repetition
import TransitionAudit.Proofs.Rule.Unsaid
import TransitionAudit.Proofs.Rule.WellFormed
import TransitionAudit.Proofs.Trace.Acceptance
import TransitionAudit.Proofs.Trace.Order
import TransitionAudit.Proofs.Trace.Reading
import TransitionAudit.Proofs.Trace.Uniform
import TransitionAudit.Proofs.Component.Name
import TransitionAudit.Proofs.Text.Stream
import TransitionAudit.Proofs.Command.ReadBack
import TransitionAudit.Proofs.Audit.Detail
