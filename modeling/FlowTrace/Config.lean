import FlowTrace.ConfigError
import FlowTrace.Protocol.Set
import FlowTrace.Saturation

/-!
# Config — the bounds under which connections are tracked

Sizes and counts are natural numbers. A bound of zero would leave the tracker unable to do any work,
so it is refused before a tracker is made.
-/

namespace FlowTrace

/-- How much of an observed payload is forwarded. -/
structure ChunkLimits where
  /-- The most payload bytes that one chunk holds. -/
  maxChunkSize : Nat
  /-- The most chunks that a flat buffer is cut into. -/
  maxChunks : Nat
  /-- The most segments of a scatter/gather call that are walked. -/
  maxSegments : Nat
  /-- How many leading segments are searched for one to classify. -/
  inferenceSegments : Nat
  deriving DecidableEq, Repr

namespace ChunkLimits

def standard : ChunkLimits :=
  { maxChunkSize := 30720, maxChunks := 4, maxSegments := 42, inferenceSegments := 3 }

/-- The most payload bytes that one flat buffer can yield. -/
def maxForwardedBytes (l : ChunkLimits) : Nat :=
  saturate (l.maxChunkSize * l.maxChunks)

end ChunkLimits

/-- What happens when a new connection meets a full registry. -/
inductive CapacityPolicy
  | reject
  | evictOldest
  deriving DecidableEq, Repr

structure Config where
  chunkLimits : ChunkLimits
  /-- How many bytes, in both directions together, lie between two periodic reports. -/
  statsThreshold : Nat
  maxConnections : Nat
  /-- How many identities one sweep handles. -/
  cleanupBatchSize : Nat
  capacityPolicy : CapacityPolicy
  enabledProtocols : ProtocolSet
  deriving DecidableEq, Repr

namespace Config

def standard : Config where
  chunkLimits := .standard
  statsThreshold := 65536
  maxConnections := 131072
  cleanupBatchSize := 85
  capacityPolicy := .reject
  enabledProtocols := .all

/-- The bounds, in the order in which they are checked. -/
def bounds (c : Config) : List (Setting × Nat) :=
  [ (.maxChunkSize, c.chunkLimits.maxChunkSize),
    (.maxChunks, c.chunkLimits.maxChunks),
    (.maxSegments, c.chunkLimits.maxSegments),
    (.inferenceSegments, c.chunkLimits.inferenceSegments),
    (.statsThreshold, c.statsThreshold),
    (.maxConnections, c.maxConnections),
    (.cleanupBatchSize, c.cleanupBatchSize) ]

/-- Finds the first bound that is zero. -/
def check (c : Config) : Except ConfigError Unit :=
  match c.bounds.find? fun (_, bound) => bound == 0 with
  | some (setting, _) => .error ⟨.zeroBound, some setting⟩
  | none => .ok ()

end Config

end FlowTrace
