import FlowTrace.Address
import FlowTrace.Carry
import FlowTrace.Connection.Id
import FlowTrace.Endpoint
import FlowTrace.Operation

/-!
# Event — what the tracker reports

A connection is announced when it is opened, its payload is forwarded in chunks, its byte counts are
reported from time to time, and its end is reported with a last count.
-/

namespace FlowTrace

structure Opening where
  timestamp : Timestamp
  id : ConnectionId
  operation : Operation
  address : RemoteAddress
  role : Role
  deriving DecidableEq, Repr

structure Closing where
  timestamp : Timestamp
  id : ConnectionId
  operation : Operation
  written : Nat
  received : Nat
  deriving DecidableEq, Repr

/-- The bytes that a connection has moved so far. -/
structure StatsReport where
  timestamp : Timestamp
  id : ConnectionId
  address : RemoteAddress
  role : Role
  written : Nat
  received : Nat
  /-- No report of this connection came before. -/
  isFirst : Bool
  /-- The connection was closed. -/
  isClose : Bool
  deriving DecidableEq, Repr

/-- The two facts as flags, the first report in bit 0. -/
def StatsReport.flags (r : StatsReport) : Nat :=
  (if r.isFirst then 1 else 0) + (if r.isClose then 2 else 0)

/-- A piece of a payload, with the place of its first byte in its direction of the stream. -/
structure DataChunk where
  timestamp : Timestamp
  id : ConnectionId
  operation : Operation
  protocol : Protocol
  role : Role
  direction : Direction
  ssl : Bool
  position : Nat
  /-- How many bytes of the stream the chunk stands for. -/
  size : Nat
  /-- A header that a call before has read, to be put in front of the payload. -/
  lengthHeader : Option Header
  /-- The bytes that are at hand: a leading part of those the chunk stands for. -/
  payload : Bytes
  deriving DecidableEq, Repr

def DataChunk.isTruncated (c : DataChunk) : Bool :=
  c.payload.length < c.size

inductive Event
  | opened (e : Opening)
  | closed (e : Closing)
  | stats (e : StatsReport)
  | data (e : DataChunk)
  deriving DecidableEq, Repr

namespace Event

def id : Event → ConnectionId
  | opened e => e.id
  | closed e => e.id
  | stats e => e.id
  | data e => e.id

def timestamp : Event → Timestamp
  | opened e => e.timestamp
  | closed e => e.timestamp
  | stats e => e.timestamp
  | data e => e.timestamp

def chunk? : Event → Option DataChunk
  | data e => some e
  | _ => none

def stats? : Event → Option StatsReport
  | stats e => some e
  | _ => none

end Event

end FlowTrace
