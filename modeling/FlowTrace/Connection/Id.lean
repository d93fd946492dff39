/-!
# Connection identity — handles, incarnations and time

A handle of a process names a connection only while it is open: the number is used again later. The
generation tells the incarnations of one handle apart, and the start time of the process tells
processes with one number apart.
-/

namespace FlowTrace

/-- An open socket handle of a process. -/
structure ConnectionKey where
  pid : UInt32
  fd : Int32
  deriving DecidableEq, Repr

def ConnectionKey.toText (k : ConnectionKey) : String :=
  s!"{k.pid.toNat}:{k.fd.toInt}"

/-- One incarnation of a handle. -/
structure ConnectionId where
  key : ConnectionKey
  startTicks : UInt64
  generation : UInt64
  deriving DecidableEq, Repr

def ConnectionId.toText (i : ConnectionId) : String :=
  s!"{i.key.toText}#{i.generation.toNat}"

/-- Nanoseconds of a clock that never runs backwards. -/
structure Timestamp where
  nanoseconds : UInt64
  deriving DecidableEq, Repr

def Timestamp.toText (t : Timestamp) : String :=
  s!"{t.nanoseconds.toNat}ns"

end FlowTrace
