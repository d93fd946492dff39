import FlowTrace.Bytes
import FlowTrace.Protocol

/-!
# CQL — frames of the Cassandra native protocol, versions 3 to 5

The nine-byte frame header holds version, flags, stream, opcode and body length. The high bit of the
version byte tells who sent the frame, and each opcode belongs to one side: a frame counts only if
its opcode fits its direction.
-/

namespace FlowTrace.Cql

structure Frame where
  fromServer : Bool
  version : UInt8
  flags : UInt8
  opcode : UInt8
  length : Int
  deriving DecidableEq, Repr

def Frame.read? (b : Bytes) : Option Frame := do
  let version ← b[0]?
  let flags ← b[1]?
  let opcode ← b[4]?
  let length ← b.int32? 5
  pure { fromServer := version &&& 0x80 != 0, version := version &&& 0x7f, flags, opcode, length }

/-- Bodies may be far longer, but only common small frames are recognised. -/
def maxLength : Int := 10000

/-- STARTUP, OPTIONS, QUERY, PREPARE, EXECUTE, REGISTER, BATCH, AUTH_RESPONSE. -/
def clientOpcodes : List UInt8 :=
  [0x01, 0x05, 0x07, 0x09, 0x0a, 0x0b, 0x0d, 0x0f]

/-- ERROR, READY, AUTHENTICATE, SUPPORTED, RESULT, EVENT, AUTH_CHALLENGE, AUTH_SUCCESS. -/
def serverOpcodes : List UInt8 :=
  [0x00, 0x02, 0x03, 0x06, 0x08, 0x0c, 0x0e, 0x10]

/-- A known version, no undefined flag, and a length that is not above the limit. The length is
signed, so a negative one passes. -/
def Frame.wellFormed (f : Frame) : Bool :=
  3 ≤ f.version && f.version ≤ 5 && f.flags &&& 0xf0 == 0 && f.length ≤ maxLength

def Frame.messageType (f : Frame) : MessageType :=
  if !f.wellFormed then .unknown
  else if !f.fromServer && clientOpcodes.contains f.opcode then .request
  else if f.fromServer && serverOpcodes.contains f.opcode then .response
  else .unknown

def classify (b : Bytes) : MessageType :=
  ((Frame.read? b).map Frame.messageType).getD .unknown

end FlowTrace.Cql
