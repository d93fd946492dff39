import FlowTrace.Protocol

/-!
# Match — the outcome of a signature that may use the carried header
-/

namespace FlowTrace

structure Match where
  messageType : MessageType
  /-- The payload before this one was taken for the header of this message. -/
  usedCarry : Bool
  deriving DecidableEq, Repr

end FlowTrace
