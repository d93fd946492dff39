import FlowTrace.Bytes

/-!
# Redis — one serialised value

Requests and responses have the same form, so a match says nothing about the kind of the message.
-/

namespace FlowTrace.Redis

def minLength : Nat := 3

/-- Simple string, error, integer, bulk string, array. -/
def markers : Bytes :=
  Bytes.ofChars ['+', '-', ':', '$', '*']

def isValue (b : Bytes) : Bool :=
  minLength ≤ b.length && b.head?.any markers.contains && b.endsWith Bytes.crlf

end FlowTrace.Redis
