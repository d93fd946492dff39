import FlowTrace.Config
import FlowTrace.Control
import FlowTrace.Document.Vocabulary

/-!
# Stored settings — configuration and control

Nothing is checked here beyond the form: a stored configuration may hold bounds of zero.
-/

namespace FlowTrace

instance : Stored ChunkLimits where
  write l :=
    .object
      [ ("max_chunk_size", Stored.write l.maxChunkSize),
        ("max_chunks", Stored.write l.maxChunks),
        ("max_segments", Stored.write l.maxSegments),
        ("inference_segments", Stored.write l.inferenceSegments) ]
  read? d := do
    match ← d.fields? ["max_chunk_size", "max_chunks", "max_segments", "inference_segments"] with
    | [maxChunkSize, maxChunks, maxSegments, inferenceSegments] =>
      pure
        { maxChunkSize := ← Document.required maxChunkSize
          maxChunks := ← Document.required maxChunks
          maxSegments := ← Document.required maxSegments
          inferenceSegments := ← Document.required inferenceSegments }
    | _ => none

instance : Stored Config where
  write c :=
    .object
      [ ("chunk_limits", Stored.write c.chunkLimits),
        ("stats_threshold", Stored.write c.statsThreshold),
        ("max_connections", Stored.write c.maxConnections),
        ("cleanup_batch_size", Stored.write c.cleanupBatchSize),
        ("capacity_policy", Stored.write c.capacityPolicy),
        ("enabled_protocols", Stored.write c.enabledProtocols) ]
  read? d := do
    match ←
      d.fields?
        [ "chunk_limits", "stats_threshold", "max_connections", "cleanup_batch_size",
          "capacity_policy", "enabled_protocols" ] with
    | [ chunkLimits, statsThreshold, maxConnections, cleanupBatchSize, capacityPolicy,
        enabledProtocols ] =>
      pure
        { chunkLimits := ← Document.required chunkLimits
          statsThreshold := ← Document.required statsThreshold
          maxConnections := ← Document.required maxConnections
          cleanupBatchSize := ← Document.required cleanupBatchSize
          capacityPolicy := ← Document.required capacityPolicy
          enabledProtocols := ← Document.required enabledProtocols }
    | _ => none

instance : Stored Target where
  write
    | .unspecified => .text "Unspecified"
    | .all => .text "All"
    | .pid p => .object [("Pid", Stored.write p)]
  read?
    | .text "Unspecified" => some .unspecified
    | .object [("Unspecified", .null)] => some .unspecified
    | .text "All" => some .all
    | .object [("All", .null)] => some .all
    | .object [("Pid", p)] => (Stored.read? p).map .pid
    | _ => none

namespace Control

/-- The masks of all protocols, by increasing index. -/
def maskList (c : Control) : List TraceMask :=
  Protocol.all.map c.masks

/-- The masks of a list that has one for each protocol. -/
def masksOfList? (masks : List TraceMask) : Option (Protocol → TraceMask) :=
  if masks.length = Protocol.all.length then some fun p => (masks[p.index]?).getD .disabled
  else none

end Control

instance : Stored Control where
  write c :=
    .object
      [ ("protocol_masks", Stored.write c.maskList),
        ("self_pid", Stored.write c.selfPid),
        ("target", Stored.write c.target) ]
  read? d := do
    match ← d.fields? ["protocol_masks", "self_pid", "target"] with
    | [masks, selfPid, target] =>
      pure
        { masks := ← (Document.required masks).bind Control.masksOfList?
          selfPid := ← Document.optional selfPid
          target := ← Document.required target }
    | _ => none

end FlowTrace
