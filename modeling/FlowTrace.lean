import FlowTrace.Tracker
import FlowTrace.Document.Identity
import FlowTrace.Document.Settings
import FlowTrace.Proofs.EventProtocol
import FlowTrace.Proofs.Withholding
import FlowTrace.Proofs.Accounting
import FlowTrace.Proofs.Position
import FlowTrace.Proofs.LengthHeader
import FlowTrace.Proofs.Intake
import FlowTrace.Proofs.Latching
import FlowTrace.Proofs.Forwarding
import FlowTrace.Proofs.Occupancy
import FlowTrace.Proofs.Isolation
import FlowTrace.Proofs.Integrity
import FlowTrace.Proofs.Capacity
import FlowTrace.Proofs.Ledger
import FlowTrace.Proofs.Refusal
import FlowTrace.Proofs.Gate
import FlowTrace.Proofs.Unresolved
import FlowTrace.Proofs.Continuity
import FlowTrace.Proofs.Reporting
import FlowTrace.Proofs.Reattachment
import FlowTrace.Proofs.Silence
import FlowTrace.Proofs.SplitRequest
import FlowTrace.Proofs.Checked.Arithmetic
import FlowTrace.Proofs.Checked.Detection
import FlowTrace.Proofs.Checked.Cutting
import FlowTrace.Proofs.Checked.Traffic
import FlowTrace.Proofs.Checked.Run
import FlowTrace.Proofs.Partition
import FlowTrace.Proofs.Overrun
import FlowTrace.Proofs.Ceiling
import FlowTrace.Proofs.LoneSegment
import FlowTrace.Proofs.Drops
import FlowTrace.Proofs.Sweep
import FlowTrace.Proofs.Gluing
import FlowTrace.Proofs.Handover
import FlowTrace.Proofs.Staleness
import FlowTrace.Proofs.Precedence
import FlowTrace.Proofs.Extension
import FlowTrace.Proofs.Frames
import FlowTrace.Proofs.LeadingToken
