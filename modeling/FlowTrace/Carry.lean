import FlowTrace.Bytes

/-!
# Carry — a length header read by the call before

Servers of length-framed protocols often read the four header bytes with one call and the message
with the next. The carry of a connection keeps the last four-byte payload, so that a message whose
length it announces can be recognised without its header, and so that the header can be handed on
in front of the message.
-/

namespace FlowTrace

/-- The four bytes of a length header. -/
structure Header where
  b0 : UInt8
  b1 : UInt8
  b2 : UInt8
  b3 : UInt8
  deriving DecidableEq, Repr

namespace Header

def zero : Header :=
  ⟨0, 0, 0, 0⟩

def toBytes (h : Header) : Bytes :=
  [h.b0, h.b1, h.b2, h.b3]

/-- A payload is a header exactly if it is four bytes long. -/
def ofBytes? : Bytes → Option Header
  | [b0, b1, b2, b3] => some ⟨b0, b1, b2, b3⟩
  | _ => none

theorem ofBytes?_eq_some_iff {b : Bytes} {h : Header} : ofBytes? b = some h ↔ b = h.toBytes := by
  constructor
  · intro hb
    unfold ofBytes? at hb
    split at hb
    · cases hb
      rfl
    · cases hb
  · rintro rfl
    rfl

theorem bigEndian_eq (h : Header) : h.toBytes.bigEndian =
    16777216 * h.b0.toNat + 65536 * h.b1.toNat + 256 * h.b2.toNat + h.b3.toNat := by
  simp only [toBytes, Bytes.bigEndian, List.foldl_cons, List.foldl_nil]
  omega

theorem bigEndian_lt (h : Header) : h.toBytes.bigEndian < 4294967296 := by
  have h0 := h.b0.toNat_lt
  have h1 := h.b1.toNat_lt
  have h2 := h.b2.toNat_lt
  have h3 := h.b3.toNat_lt
  rw [bigEndian_eq]
  omega

end Header

/-- What a connection remembers of its earlier payloads. The stored header is the last four-byte
payload, but it only counts while `lastLength` is 4, that is, directly after it was seen. -/
structure Carry where
  lastLength : Nat
  header : Header
  /-- The header precedes the message that was just recognised. -/
  prepend : Bool
  deriving DecidableEq, Repr

namespace Carry

def empty : Carry :=
  ⟨0, .zero, false⟩

/-- Remembers a payload. -/
def record (c : Carry) (payload : Bytes) : Carry :=
  { c with
    lastLength := payload.length
    header := (Header.ofBytes? payload).getD c.header }

def clearPrepend (c : Carry) : Carry :=
  { c with prepend := false }

/-- The header to hand on in front of the current message. -/
def lengthHeader (c : Carry) : Option Header :=
  if c.prepend then some c.header else none

/-- The payload before was a header that announces `length` bytes, least significant byte first. -/
def announcesLE (c : Carry) (length : Nat) : Bool :=
  c.lastLength == 4 && c.header.toBytes.littleEndian == length

/-- The payload before was a header that announces `length` bytes, most significant byte first and
signed: a negative number announces no length. -/
def announcesBE (c : Carry) (length : Nat) : Bool :=
  c.lastLength == 4 && Bytes.signed32 c.header.toBytes.bigEndian == (length : Int)

end Carry

end FlowTrace
