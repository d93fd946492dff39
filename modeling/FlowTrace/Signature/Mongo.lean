import FlowTrace.Bytes
import FlowTrace.Protocol

/-!
# MongoDB — requests by their sixteen-byte header

Responses are not recognised: their headers look too much like those of other protocols whose
numbers also start with the least significant byte.
-/

namespace FlowTrace.Mongo

structure MessageHeader where
  messageLength : Int
  requestId : Int
  responseTo : Int
  opcode : Int
  deriving DecidableEq, Repr

def MessageHeader.read? (b : Bytes) : Option MessageHeader := do
  let messageLength ← b.int32LE? 0
  let requestId ← b.int32LE? 4
  let responseTo ← b.int32LE? 8
  let opcode ← b.int32LE? 12
  pure { messageLength, requestId, responseTo, opcode }

def headerLength : Int := 16

/-- UPDATE, INSERT, a reserved one, QUERY, GET_MORE, DELETE, KILL_CURSORS, COMPRESSED, MSG. -/
def requestOpcodes : List Int :=
  [2001, 2002, 2003, 2004, 2005, 2006, 2007, 2012, 2013]

/-- A request answers nothing and its length covers its own header. -/
def MessageHeader.isRequest (h : MessageHeader) : Bool :=
  headerLength ≤ h.messageLength && 0 ≤ h.requestId && h.responseTo == 0 &&
    requestOpcodes.contains h.opcode

def classify (b : Bytes) : MessageType :=
  match MessageHeader.read? b with
  | some h => if h.isRequest then .request else .unknown
  | none => .unknown

end FlowTrace.Mongo
