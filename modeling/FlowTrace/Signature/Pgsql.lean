import FlowTrace.Bytes
import FlowTrace.Protocol

/-!
# PostgreSQL — startup packets and simple queries

Only what a client sends is recognised: the version 3.0 startup packet, which has no tag, and the
query message, whose tag is `Q`.
-/

namespace FlowTrace.Pgsql

/-! ## Startup packets -/

/-- Length, protocol version and at least four bytes of a parameter name. -/
def startupMinLength : Nat := 12

def startupMaxLength : Nat := 10240

def version3 : Bytes := [0x00, 0x03, 0x00, 0x00]

/-- A parameter name such as `user` starts with letters; any ASCII byte from `A` on passes. -/
def isNameByte (x : UInt8) : Bool :=
  0x41 ≤ x && x < 0x80

def isStartup (b : Bytes) : Bool :=
  startupMinLength ≤ b.length &&
    (b.int32? 0).any (fun n => (startupMinLength : Int) ≤ n && n ≤ startupMaxLength) &&
    b.field? 4 4 == some version3 &&
    (b.field? 8 3).any fun name => name.all isNameByte

/-! ## Queries -/

def queryTag : UInt8 := 0x51

/-- The length counts its own four bytes, and the shortest commands have three letters. -/
def queryMinLength : Nat := 8

def queryMaxLength : Nat := 30000

/-- The query text ends with a zero byte, which is checked where that byte was staged. -/
def isQuery (b : Bytes) : Bool :=
  b[0]? == some queryTag &&
    (b.int32? 1).any fun n =>
      (queryMinLength : Int) ≤ n && n ≤ queryMaxLength && (b[n.toNat]?).all (· == 0)

def classify (b : Bytes) : MessageType :=
  if isStartup b || isQuery b then .request else .unknown

end FlowTrace.Pgsql
