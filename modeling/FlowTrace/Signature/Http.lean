import FlowTrace.Bytes
import FlowTrace.Protocol

/-!
# HTTP/1 — recognised by the first letters of the start line

A status line starts with `HTTP`, a request line with its method. Only payloads that could hold a
whole start line are looked at.
-/

namespace FlowTrace.Http

/-- The shortest request line, `GET x HTTP/1.1` with its line end, has 16 bytes. -/
def minLength : Nat := 16

def statusMark : Bytes :=
  Bytes.ofChars ['H', 'T', 'T', 'P']

def methods : List Bytes :=
  [ Bytes.ofChars ['G', 'E', 'T'],
    Bytes.ofChars ['H', 'E', 'A', 'D'],
    Bytes.ofChars ['P', 'O', 'S', 'T'],
    Bytes.ofChars ['P', 'U', 'T'],
    Bytes.ofChars ['D', 'E', 'L', 'E', 'T', 'E'] ]

def classify (b : Bytes) : MessageType :=
  if b.length < minLength then .unknown
  else if statusMark.isPrefixOf b then .response
  else if methods.any fun m => m.isPrefixOf b then .request
  else .unknown

end FlowTrace.Http
