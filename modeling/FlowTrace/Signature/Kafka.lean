import FlowTrace.Carry
import FlowTrace.Signature.Match

/-!
# Kafka — requests that are exactly one message

A message is a four-byte size and that many bytes. The payload has to be one whole message, or one
message without its size where the payload before was that size. Requests that are split in another
way are missed, which keeps wrong matches rare.
-/

namespace FlowTrace.Kafka

structure RequestHeader where
  apiKey : Int
  apiVersion : Int
  correlationId : Int
  deriving DecidableEq, Repr

def RequestHeader.read? (b : Bytes) : Option RequestHeader := do
  let apiKey ← b.int16? 0
  let apiVersion ← b.int16? 2
  let correlationId ← b.int32? 4
  pure { apiKey, apiVersion, correlationId }

def maxApiKey : Int := 62

def maxApiVersion : Int := 12

def RequestHeader.wellFormed (h : RequestHeader) : Bool :=
  0 ≤ h.apiKey && h.apiKey ≤ maxApiKey && 0 ≤ h.apiVersion && h.apiVersion ≤ maxApiVersion &&
    0 ≤ h.correlationId

/-- The message without its size, if the payload is exactly one message. -/
def body? (b : Bytes) (carry : Carry) : Option Bytes :=
  if carry.announcesBE b.length then some b
  else if (b.int32? 0).any fun size => size + 4 == (b.length : Int) then some (b.drop 4)
  else none

def classify (b : Bytes) (carry : Carry) : Match :=
  if ((body? b carry).bind RequestHeader.read?).any RequestHeader.wellFormed then
    ⟨.request, carry.announcesBE b.length⟩
  else ⟨.unknown, false⟩

end FlowTrace.Kafka
