import FlowTrace.Bytes
import FlowTrace.Protocol

/-!
# AMQP 0-9-1 — method frames of the handshake and of publish and deliver

A frame holds its type, the channel and the size in seven bytes; a method frame goes on with the
class and the method.
-/

namespace FlowTrace.Amqp

structure Method where
  classId : Nat
  methodId : Nat
  deriving DecidableEq, Repr

def methodFrame : UInt8 := 1

def Method.read? (b : Bytes) : Option Method := do
  let frameType ← b[0]?
  let classId ← b.word16? 7
  let methodId ← b.word16? 9
  if frameType == methodFrame then pure { classId, methodId } else none

def connectionStart : Method := ⟨10, 10⟩

def connectionStartOk : Method := ⟨10, 11⟩

def basicPublish : Method := ⟨60, 40⟩

def basicDeliver : Method := ⟨60, 60⟩

def Method.messageType (m : Method) : MessageType :=
  if m = connectionStart || m = basicPublish then .request
  else if m = connectionStartOk || m = basicDeliver then .response
  else .unknown

def classify (b : Bytes) : MessageType :=
  ((Method.read? b).map Method.messageType).getD .unknown

end FlowTrace.Amqp
