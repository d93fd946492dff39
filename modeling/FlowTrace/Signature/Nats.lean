import FlowTrace.Bytes
import FlowTrace.Protocol

/-!
# NATS — lines that start with a verb of one side

A line of the client counts as a request and a line of the server as a response. `PING` and `PONG`
are sent by both sides and stay unrecognised.
-/

namespace FlowTrace.Nats

def minLength : Nat := 3

def clientVerbs : List Bytes :=
  [ Bytes.ofChars ['C', 'O', 'N', 'N', 'E', 'C', 'T'],
    Bytes.ofChars ['S', 'U', 'B'],
    Bytes.ofChars ['U', 'N', 'S', 'U', 'B'],
    Bytes.ofChars ['P', 'U', 'B'] ]

def serverVerbs : List Bytes :=
  [ Bytes.ofChars ['I', 'N', 'F', 'O'],
    Bytes.ofChars ['M', 'S', 'G'],
    Bytes.ofChars ['+', 'O', 'K'],
    Bytes.ofChars ['-', 'E', 'R', 'R'] ]

def isLine (b : Bytes) : Bool :=
  minLength ≤ b.length && b.endsWith Bytes.crlf

def classify (b : Bytes) : MessageType :=
  if !isLine b then .unknown
  else if clientVerbs.any fun verb => verb.isPrefixOf b then .request
  else if serverVerbs.any fun verb => verb.isPrefixOf b then .response
  else .unknown

end FlowTrace.Nats
