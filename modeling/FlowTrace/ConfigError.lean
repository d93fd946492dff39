/-!
# ConfigError — why a configuration is refused
-/

namespace FlowTrace

/-- The settings that a check can find fault with. -/
inductive Setting
  | maxChunkSize
  | maxChunks
  | maxSegments
  | inferenceSegments
  | statsThreshold
  | maxConnections
  | cleanupBatchSize
  | protocolMasks
  | target
  deriving DecidableEq, Repr

/-- Where a setting stands in the configuration. -/
def Setting.path : Setting → String
  | maxChunkSize => "chunk_limits.max_chunk_size"
  | maxChunks => "chunk_limits.max_chunks"
  | maxSegments => "chunk_limits.max_segments"
  | inferenceSegments => "chunk_limits.inference_segments"
  | statsThreshold => "stats_threshold"
  | maxConnections => "max_connections"
  | cleanupBatchSize => "cleanup_batch_size"
  | protocolMasks => "protocol_masks"
  | target => "target"

namespace ConfigError

inductive Kind
  | zeroBound
  | unknownProtocolMask
  | targetIsSelf
  deriving DecidableEq, Repr

def Kind.message : Kind → String
  | zeroBound => "bound must be greater than zero"
  | unknownProtocolMask => "trace mask set for the unknown protocol"
  | targetIsSelf => "target process is the monitoring process, whose data is never traced"

end ConfigError

structure ConfigError where
  kind : ConfigError.Kind
  setting : Option Setting
  deriving DecidableEq, Repr

def ConfigError.message (e : ConfigError) : String :=
  match e.setting with
  | some s => s!"[{s.path}] {e.kind.message}"
  | none => e.kind.message

end FlowTrace
