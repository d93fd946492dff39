import FlowTrace.Address.Reader

/-!
# IPv4 addresses — four decimal numbers with dots

A number has at most three digits and no leading zero.
-/

namespace FlowTrace

structure IPv4 where
  a : UInt8
  b : UInt8
  c : UInt8
  d : UInt8
  deriving DecidableEq, Repr

namespace IPv4

def readOctet : Reader UInt8 := fun cs => do
  let (digits, rest) ← Reader.digits 10 cs
  if 3 < digits.length || (digits.head? == some 0 && 1 < digits.length) then none
  else
    let n := Reader.value 10 digits
    if n < 256 then some (n.toUInt8, rest) else none

def read : Reader IPv4 := fun cs => do
  let (a, cs) ← readOctet cs
  let cs ← Reader.char '.' cs
  let (b, cs) ← readOctet cs
  let cs ← Reader.char '.' cs
  let (c, cs) ← readOctet cs
  let cs ← Reader.char '.' cs
  let (d, cs) ← readOctet cs
  some (⟨a, b, c, d⟩, cs)

def toText (ip : IPv4) : String :=
  s!"{ip.a.toNat}.{ip.b.toNat}.{ip.c.toNat}.{ip.d.toNat}"

end IPv4

end FlowTrace
