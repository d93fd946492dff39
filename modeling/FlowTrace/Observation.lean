import FlowTrace.Address
import FlowTrace.Bytes
import FlowTrace.Connection.Id
import FlowTrace.Endpoint
import FlowTrace.Operation

/-!
# Observation — what was seen of a process and its sockets

The observations of one handle come in the order in which things happened. The payload of a call is
what could be staged of it, which may be less than the call moved.
-/

namespace FlowTrace

/-- A connection was set up, or traffic was seen on a handle that was not tracked. -/
structure Opened where
  key : ConnectionKey
  startTicks : UInt64
  address : RemoteAddress
  hint : RoleHint
  operation : Operation
  timestamp : Timestamp
  deriving DecidableEq, Repr

/-- The staged bytes: one buffer, or the segments of a scatter/gather call. -/
inductive Payload
  | flat (buffer : Bytes)
  | segments (parts : List Bytes)
  deriving DecidableEq, Repr

/-- How many bytes were staged, over all segments. -/
def Payload.stagedLength : Payload → Nat
  | flat buffer => buffer.length
  | segments parts => parts.flatten.length

/-- A call moved bytes. -/
structure Transfer where
  key : ConnectionKey
  startTicks : UInt64
  direction : Direction
  payload : Payload
  /-- How many bytes the call says it moved. -/
  byteCount : Nat
  operation : Operation
  /-- The payload is plain text taken from a TLS library. -/
  ssl : Bool
  timestamp : Timestamp
  deriving DecidableEq, Repr

/-- The kernel sent the bytes of a file, which were never in the memory of the process. -/
structure FileTransfer where
  key : ConnectionKey
  startTicks : UInt64
  byteCount : Nat
  timestamp : Timestamp
  deriving DecidableEq, Repr

/-- A handle was closed. -/
structure Closed where
  key : ConnectionKey
  timestamp : Timestamp
  deriving DecidableEq, Repr

/-- A TLS library works on a handle. -/
structure TlsDetected where
  key : ConnectionKey
  startTicks : UInt64
  deriving DecidableEq, Repr

inductive Observation
  | opened (o : Opened)
  | data (o : Transfer)
  | sendfile (o : FileTransfer)
  | closed (o : Closed)
  | tlsDetected (o : TlsDetected)
  /-- The reader of the events is done with these connections. -/
  | cleanup (ids : List ConnectionId)
  deriving DecidableEq, Repr

end FlowTrace
