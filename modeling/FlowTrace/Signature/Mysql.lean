import FlowTrace.Carry
import FlowTrace.Signature.Match

/-!
# MySQL — commands a client sends

A packet is a header of three length bytes and a sequence number, and a body that starts with the
command. If the payload before was a header that announces this payload, this payload is the body.
-/

namespace FlowTrace.Mysql

structure Packet where
  header : Header
  command : UInt8
  deriving DecidableEq, Repr

def Packet.read? (b : Bytes) (carry : Carry) : Option Packet :=
  if carry.announcesLE b.length then b.head?.map (Packet.mk carry.header)
  else
    match b with
    | b0 :: b1 :: b2 :: b3 :: command :: _ => some ⟨⟨b0, b1, b2, b3⟩, command⟩
    | _ => none

def Packet.length (p : Packet) : Nat :=
  Bytes.littleEndian [p.header.b0, p.header.b1, p.header.b2]

def Packet.sequence (p : Packet) : UInt8 :=
  p.header.b3

def maxLength : Nat := 10000

/-- QUERY, CONNECT, STMT_PREPARE, STMT_EXECUTE, STMT_CLOSE. -/
def commands : List UInt8 :=
  [0x03, 0x0b, 0x16, 0x17, 0x19]

/-- A command opens an exchange, so its sequence number is zero. -/
def Packet.isCommand (p : Packet) : Bool :=
  p.sequence == 0 && p.length != 0 && p.length ≤ maxLength && commands.contains p.command

def classify (b : Bytes) (carry : Carry) : Match :=
  if (Packet.read? b carry).any Packet.isCommand then ⟨.request, carry.announcesLE b.length⟩
  else ⟨.unknown, false⟩

end FlowTrace.Mysql
