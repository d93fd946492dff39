import FlowTrace.Protocol

/-!
# ProtocolSet — the protocols whose signatures are tried

A set is a 32-bit mask with one bit per protocol index. Masks come from configuration as they are:
bits that name no protocol, or a protocol without a signature, are kept and have no effect.
-/

namespace FlowTrace

structure ProtocolSet where
  bits : UInt32
  deriving DecidableEq, Repr

namespace ProtocolSet

def empty : ProtocolSet :=
  ⟨0⟩

def bit (p : Protocol) : UInt32 :=
  1 <<< p.index.toUInt32

def insert (s : ProtocolSet) (p : Protocol) : ProtocolSet :=
  ⟨s.bits ||| bit p⟩

def erase (s : ProtocolSet) (p : Protocol) : ProtocolSet :=
  ⟨s.bits &&& ~~~bit p⟩

def contains (s : ProtocolSet) (p : Protocol) : Bool :=
  s.bits &&& bit p != 0

def isEmpty (s : ProtocolSet) : Bool :=
  s.bits == 0

def ofList (ps : List Protocol) : ProtocolSet :=
  ps.foldl insert empty

/-- Every protocol that has a signature. -/
def all : ProtocolSet :=
  ofList (Protocol.all.filter Protocol.hasSignature)

/-- The protocols of a set, by increasing index. -/
def toList (s : ProtocolSet) : List Protocol :=
  Protocol.all.filter s.contains

end ProtocolSet

end FlowTrace
