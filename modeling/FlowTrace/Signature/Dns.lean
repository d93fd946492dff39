import FlowTrace.Bytes
import FlowTrace.Protocol

/-!
# DNS — standard queries and their answers, by the twelve-byte header

The message has to fit a plain datagram, the operation code and the reserved bit are zero, and the
numbers of records are believable. One flag tells answers from queries.
-/

namespace FlowTrace.Dns

structure MessageHeader where
  flags : Nat
  questions : Nat
  answers : Nat
  authorities : Nat
  additionals : Nat
  deriving DecidableEq, Repr

def MessageHeader.read? (b : Bytes) : Option MessageHeader := do
  let flags ← b.word16? 2
  let questions ← b.word16? 4
  let answers ← b.word16? 6
  let authorities ← b.word16? 8
  let additionals ← b.word16? 10
  pure { flags, questions, answers, authorities, additionals }

def maxLength : Nat := 512

def maxQuestions : Nat := 10

def maxRecords : Nat := 25

namespace MessageHeader

def isAnswer (h : MessageHeader) : Bool :=
  h.flags.testBit 15

/-- The four flag bits from bit 11 on. -/
def opcode (h : MessageHeader) : Nat :=
  h.flags / 2048 % 16

def reserved (h : MessageHeader) : Bool :=
  h.flags.testBit 6

def records (h : MessageHeader) : Nat :=
  h.questions + h.answers + h.authorities + h.additionals

def wellFormed (h : MessageHeader) : Bool :=
  !h.reserved && h.opcode == 0 && h.questions != 0 && h.questions ≤ maxQuestions &&
    h.records ≤ maxRecords

def messageType (h : MessageHeader) : MessageType :=
  if !h.wellFormed then .unknown
  else if h.isAnswer then .response
  else .request

end MessageHeader

def classify (b : Bytes) : MessageType :=
  if b.length ≤ maxLength then ((MessageHeader.read? b).map MessageHeader.messageType).getD .unknown
  else .unknown

end FlowTrace.Dns
