import FlowTrace.Connection
import FlowTrace.Control
import FlowTrace.Counters
import FlowTrace.Event
import FlowTrace.Piece

/-!
# Movement — bytes that moved on a connection

Bytes that moved are forwarded in chunks, if the gate lets them pass, and are added to the totals of
the connection in any case. A report follows whenever the combined total has grown by the threshold
since the report before.
-/

namespace FlowTrace

/-- What moved: a payload that was staged, or a file, of which nothing is. -/
inductive Content
  | staged (payload : Payload)
  | file
  deriving DecidableEq, Repr

structure Movement where
  timestamp : Timestamp
  operation : Operation
  direction : Direction
  byteCount : Nat
  content : Content
  /-- A header to be put in front of the first piece. -/
  lengthHeader : Option Header
  deriving DecidableEq, Repr

def Movement.pieces (m : Movement) (limits : ChunkLimits) : List Piece :=
  match m.content with
  | .staged payload => payload.pieces limits m.byteCount
  | .file => [Piece.unstaged m.byteCount]

/-- What became of a connection, what is to be reported, and what is to be counted. -/
structure Reaction where
  connection : Connection
  events : List Event
  tally : Counters
  deriving DecidableEq, Repr

/-! ## The gate -/

/-- Whether the data of a connection is forwarded. A forced process passes the masks, but neither
the check for the monitoring process nor that for disabled generations. -/
def Control.sends (control : Control) (force : Bool) (c : Connection) : Bool :=
  control.selfPid != some c.id.key.pid && !c.isDisabled &&
    (force || (c.protocol.isKnown && (control.masks c.protocol).allows c.role))

namespace Connection

/-! ## Chunks -/

/-- The chunks of consecutive pieces, the first of which stands at `position`. Only the first chunk
carries the length header. -/
def chunks (c : Connection) (m : Movement) :
    (position : Nat) → (lengthHeader : Option Header) → List Piece → List DataChunk
  | _, _, [] => []
  | position, lengthHeader, p :: ps =>
    { timestamp := m.timestamp
      id := c.id
      operation := m.operation
      protocol := c.protocol
      role := c.role
      direction := m.direction
      ssl := c.ssl
      position
      size := p.size
      lengthHeader
      payload := p.payload } :: c.chunks m (position + p.size) none ps

/-- The chunks to send and what there is to count, with or without them. Bytes that are held back are
not cut at all, so the limits bound the work only for what is sent. -/
def forward (c : Connection) (limits : ChunkLimits) (control : Control) (force : Bool)
    (m : Movement) : List DataChunk × Counters :=
  if control.sends force c then
    let pieces := m.pieces limits
    (c.chunks m (c.position m.direction) m.lengthHeader pieces,
      { dataChunks := pieces.length.toUInt64
        truncatedBytes := (Piece.truncated pieces).toUInt64
        unreportedBytes := (m.byteCount - Piece.totalSize pieces).toUInt64 })
  else ([], { dataFiltered := 1 })

/-! ## Reports -/

def report (c : Connection) (timestamp : Timestamp) (isClose : Bool) : StatsReport where
  timestamp := timestamp
  id := c.id
  address := c.address
  role := c.role
  written := c.written
  received := c.received
  isFirst := !c.isReported
  isClose := isClose

/-- Adds the bytes to the totals, with a report if the threshold is reached. -/
def account (c : Connection) (threshold : Nat) (m : Movement) : Connection × Option StatsReport :=
  let c := c.addBytes m.direction m.byteCount
  if c.total < saturate (c.reportedTotal + threshold) then (c, none)
  else
    ({ c with reportedTotal := c.total, isReported := true }, some (c.report m.timestamp false))

/-! ## Both together -/

def move (c : Connection) (config : Config) (control : Control) (force : Bool) (m : Movement) :
    Reaction :=
  let (chunks, forwarded) := c.forward config.chunkLimits control force m
  let (connection, report?) := c.account config.statsThreshold m
  { connection
    events := chunks.map .data ++ report?.toList.map .stats
    tally := forwarded + { statsEvents := report?.toList.length.toUInt64 } }

end Connection

end FlowTrace
