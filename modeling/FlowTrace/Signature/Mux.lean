import FlowTrace.Bytes
import FlowTrace.Protocol

/-!
# Mux — dispatch, init and error messages of the Finagle session protocol

The framing is loose enough to meet much other binary traffic, so init and error messages also have
to show their well-known payload marks.
-/

namespace FlowTrace.Mux

inductive Kind
  | dispatchRequest
  | dispatchResponse
  | initRequest
  | initResponse
  | error
  | legacyError
  deriving DecidableEq, Repr

/-- The type byte is signed: the types 2, -2, 68, -68, -128 and 127. -/
def Kind.ofByte? : UInt8 → Option Kind
  | 0x02 => some dispatchRequest
  | 0xfe => some dispatchResponse
  | 0x44 => some initRequest
  | 0xbc => some initResponse
  | 0x80 => some error
  | 0x7f => some legacyError
  | _ => none

def Kind.messageType : Kind → MessageType
  | dispatchRequest | initRequest | legacyError => .request
  | dispatchResponse | initResponse | error => .response

structure MessageHeader where
  size : Int
  kind : Kind
  tag : Nat
  deriving DecidableEq, Repr

def MessageHeader.read? (b : Bytes) : Option MessageHeader := do
  let size ← b.int32? 0
  let kind ← b[4]?.bind Kind.ofByte?
  let tag ← (b.field? 5 3).map Bytes.bigEndian
  pure { size, kind, tag }

/-- The tag has 23 bits; the bit above marks fragments. -/
def maxTag : Nat := 0x7fffff

def errorMark : Bytes :=
  Bytes.ofChars ['c', 'h', 'e', 'c', 'k']

def initMark : Bytes :=
  Bytes.ofChars ['m', 'u', 'x', '-', 'f', 'r', 'a', 'm', 'e', 'r']

/-- The mark of an init message lies six bytes after the header. -/
def initMarkStart : Nat := 14

/-- The mark of an error message ends where the size, which does not count its own four bytes, says
that the message ends. -/
def hasErrorMark (b : Bytes) (size : Int) : Bool :=
  let finish := size + 4
  errorMark.length ≤ finish &&
    b.field? (finish - errorMark.length).toNat errorMark.length == some errorMark

def hasInitMark (b : Bytes) : Bool :=
  b.field? initMarkStart initMark.length == some initMark

def isMarked (b : Bytes) (size : Int) : Kind → Bool
  | .error | .legacyError => hasErrorMark b size
  | .initRequest | .initResponse => hasInitMark b
  | .dispatchRequest | .dispatchResponse => true

def classify (b : Bytes) : MessageType :=
  match MessageHeader.read? b with
  | some h =>
    if isMarked b h.size h.kind && 1 ≤ h.tag && h.tag ≤ maxTag then h.kind.messageType
    else .unknown
  | none => .unknown

end FlowTrace.Mux
