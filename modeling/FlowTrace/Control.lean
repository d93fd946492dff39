import FlowTrace.ConfigError
import FlowTrace.Endpoint

/-!
# Control — whose data is forwarded

Per protocol, a mask names the roles whose data is forwarded. The monitoring process is never
traced, and a target process restricts tracing to that process.
-/

namespace FlowTrace

inductive Target
  /-- No filter by process. -/
  | unspecified
  /-- Every process, by the masks. -/
  | all
  /-- Only this process, whatever the masks say. -/
  | pid (pid : UInt32)
  deriving DecidableEq, Repr

/-- Whether observations of a process are processed at all, and if so, whether its data is forwarded
without regard to the masks. -/
def Target.force? (t : Target) (pid : UInt32) : Option Bool :=
  match t with
  | .unspecified | .all => some false
  | .pid p => if p = pid then some true else none

structure Control where
  masks : Protocol → TraceMask
  /-- The monitoring process. -/
  selfPid : Option UInt32
  target : Target

namespace Control

/-- No data is forwarded. -/
def nothing : Control where
  masks _ := .disabled
  selfPid := none
  target := .unspecified

/-- The data of every known protocol is forwarded for both roles. -/
def everything : Control :=
  { nothing with masks := fun p => if p.isKnown then .both else .disabled }

def standard : Control :=
  nothing

def withMask (c : Control) (p : Protocol) (m : TraceMask) : Control :=
  { c with masks := fun q => if q = p then m else c.masks q }

/-- Data of an unclassified connection is never forwarded, so a mask for it is a mistake, and so is
a target that is the monitoring process. -/
def check (c : Control) : Except ConfigError Unit :=
  if c.masks .unknown ≠ .disabled then .error ⟨.unknownProtocolMask, some .protocolMasks⟩
  else
    match c.selfPid, c.target with
    | some self, .pid pid =>
      if self = pid then .error ⟨.targetIsSelf, some .target⟩ else .ok ()
    | _, _ => .ok ()

end Control

end FlowTrace
