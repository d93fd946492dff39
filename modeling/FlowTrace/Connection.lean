import FlowTrace.Address
import FlowTrace.Classifier
import FlowTrace.Connection.Id
import FlowTrace.Endpoint
import FlowTrace.Saturation

/-!
# Connection — what is known of one incarnation of a handle

Protocol and role are latched: each is set once, by the first sign of it, and kept from then on. The
byte totals of the two directions only grow.
-/

namespace FlowTrace

structure Connection where
  id : ConnectionId
  address : RemoteAddress
  protocol : Protocol
  role : Role
  /-- A TLS library works on the handle. -/
  ssl : Bool
  /-- Bytes that the process has written. -/
  written : Nat
  /-- Bytes that the process has read. -/
  received : Nat
  /-- The combined total at the last periodic report. -/
  reportedTotal : Nat
  /-- Some report was made. -/
  isReported : Bool
  /-- Payloads that were taken for the latched protocol. -/
  matchCount : Nat
  /-- Payloads that were classified. -/
  sampleCount : Nat
  carry : Carry
  /-- Data is not forwarded for generations up to this one. -/
  disabledUpTo : Option UInt64
  deriving DecidableEq, Repr

namespace Connection

/-- A connection of which nothing is known but how it came to be observed. -/
def start (id : ConnectionId) (address : RemoteAddress) (role : Role) : Connection where
  id := id
  address := address
  protocol := .unknown
  role := role
  ssl := false
  written := 0
  received := 0
  reportedTotal := 0
  isReported := false
  matchCount := 0
  sampleCount := 0
  carry := .empty
  disabledUpTo := none

/-- Where the next byte of a direction stands in its stream. -/
def position (c : Connection) : Direction → Nat
  | .egress => c.written
  | .ingress => c.received

def total (c : Connection) : Nat :=
  saturate (c.written + c.received)

/-- Adds bytes to the total of a direction. -/
def addBytes (c : Connection) (d : Direction) (count : Nat) : Connection :=
  match d with
  | .egress => { c with written := saturate (c.written + count) }
  | .ingress => { c with received := saturate (c.received + count) }

def disableUpTo (c : Connection) (generation : UInt64) : Connection :=
  { c with disabledUpTo := some ((c.disabledUpTo.map (max · generation)).getD generation) }

def isDisabled (c : Connection) : Bool :=
  c.disabledUpTo.any (c.id.generation ≤ ·)

/-- Classifies a payload and latches what it shows. -/
def classify (c : Connection) (e : Classifier) (d : Direction) (sample : Bytes) : Connection :=
  let (verdict, carry) := e.infer sample c.carry c.protocol
  let seen := { c with carry, sampleCount := c.sampleCount + 1 }
  if verdict.protocol.isKnown then
    let protocol := if c.protocol.isKnown then c.protocol else verdict.protocol
    { seen with
      protocol
      matchCount := if verdict.protocol = protocol then c.matchCount + 1 else c.matchCount
      role := if c.role.isResolved then c.role else Role.ofTraffic d verdict.messageType }
  else seen

/-! ## Views -/

/-- What may be asked of a connection while it is tracked. -/
structure Snapshot where
  id : ConnectionId
  address : RemoteAddress
  protocol : Protocol
  role : Role
  ssl : Bool
  written : Nat
  received : Nat
  reportedTotal : Nat
  matchCount : Nat
  sampleCount : Nat
  disabledUpTo : Option UInt64
  deriving DecidableEq, Repr

def snapshot (c : Connection) : Snapshot where
  id := c.id
  address := c.address
  protocol := c.protocol
  role := c.role
  ssl := c.ssl
  written := c.written
  received := c.received
  reportedTotal := c.reportedTotal
  matchCount := c.matchCount
  sampleCount := c.sampleCount
  disabledUpTo := c.disabledUpTo

end Connection

end FlowTrace
