/-!
# Saturation — totals that stop at the largest 64-bit word

Byte totals are natural numbers that are cut off at the largest word instead of wrapping.
-/

namespace FlowTrace

def maxWord : Nat :=
  0xffffffffffffffff

def saturate (n : Nat) : Nat :=
  min maxWord n

end FlowTrace
