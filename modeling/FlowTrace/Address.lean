import FlowTrace.Address.IPv6

/-!
# Address — the remote end of a connection

The text of a socket address is an IPv4 address, or an IPv6 address in brackets, then a colon and the
`portNumber` in decimal, for which leading zeros are accepted. An IPv6 address may name a scope after
a percent sign; scope 0 is not written.
-/

namespace FlowTrace

inductive SocketAddress
  | v4 (ip : IPv4) (portNumber : UInt16)
  | v6 (ip : IPv6) (scope : UInt32) (portNumber : UInt16)
  deriving DecidableEq, Repr

namespace SocketAddress

def portNumber : SocketAddress → UInt16
  | v4 _ n => n
  | v6 _ _ n => n

/-! ## Reading -/

def readPortNumber : Reader UInt16 := fun cs => do
  let cs ← Reader.char ':' cs
  let (n, rest) ← Reader.number 10 UInt16.size cs
  some (n.toUInt16, rest)

def readV4 : Reader SocketAddress := fun cs => do
  let (ip, cs) ← IPv4.read cs
  let (n, cs) ← readPortNumber cs
  some (v4 ip n, cs)

/-- A scope that cannot be read is no part of the address. -/
def readScope (cs : List Char) : UInt32 × List Char :=
  match (Reader.char '%' cs).bind (Reader.number 10 UInt32.size) with
  | some (n, rest) => (n.toUInt32, rest)
  | none => (0, cs)

def readV6 : Reader SocketAddress := fun cs => do
  let cs ← Reader.char '[' cs
  let (ip, cs) ← IPv6.read cs
  let (scope, cs) := readScope cs
  let cs ← Reader.char ']' cs
  let (n, cs) ← readPortNumber cs
  some (v6 ip scope n, cs)

/-- A socket address that is the whole text. -/
def ofText? (text : String) : Option SocketAddress :=
  match readV4 text.toList <|> readV6 text.toList with
  | some (address, []) => some address
  | _ => none

/-! ## Writing -/

def toText : SocketAddress → String
  | v4 ip n => s!"{ip.toText}:{n.toNat}"
  | v6 ip scope n =>
    let zone := if scope = 0 then "" else s!"%{scope.toNat}"
    s!"[{ip.toText}{zone}]:{n.toNat}"

end SocketAddress

/-! ## Remote ends -/

/-- The remote end of a connection: never seen, a socket address, or an address of another family,
of which only the number of the family is known. -/
inductive RemoteAddress
  | unknown
  | inet (address : SocketAddress)
  | other (family : UInt16)
  deriving DecidableEq, Repr, Inhabited

namespace RemoteAddress

/-- Connections of other families are not reported. An unknown remote end may well be a socket
address that was set before the observation began. -/
def isTraceable : RemoteAddress → Bool
  | other _ => false
  | _ => true

def portNumber? : RemoteAddress → Option UInt16
  | inet address => some address.portNumber
  | _ => none

end RemoteAddress

end FlowTrace
