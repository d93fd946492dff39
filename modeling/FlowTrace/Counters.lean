/-!
# Counters — an account of everything that is dropped, cut or counted

Nothing that is observed fails loudly: whatever is ignored, held back or cut is counted. Counters are
64-bit words that wrap. What one step adds is itself a value of this type, in which every counter
that is not named is zero, and the total is the sum over the steps.
-/

namespace FlowTrace

structure Counters where
  /-- Observations that were handed in. -/
  observations : UInt64 := 0
  /-- Observations of a process other than the target. -/
  unmatchedTarget : UInt64 := 0
  /-- Observations of connections whose address is of another family. -/
  nonInetSkipped : UInt64 := 0
  /-- Transfers of plain text on a TLS connection, or the other way round. -/
  sslMismatch : UInt64 := 0
  /-- Transfers that moved nothing. -/
  emptyData : UInt64 := 0
  /-- Closings, disablings and removals of handles that are not tracked. -/
  lookupMiss : UInt64 := 0
  /-- New connections that met a full registry and were refused. -/
  capacityRejected : UInt64 := 0
  /-- Connections that had to leave a full registry. -/
  capacityEvicted : UInt64 := 0
  connectionsCreated : UInt64 := 0
  connectionsClosed : UInt64 := 0
  /-- Connections whose protocol was found. -/
  protocolsLatched : UInt64 := 0
  /-- Transfers whose data was held back. -/
  dataFiltered : UInt64 := 0
  dataChunks : UInt64 := 0
  /-- Bytes that a chunk stands for but does not hold. -/
  truncatedBytes : UInt64 := 0
  /-- Bytes past the bound on segments, for which there is no chunk. -/
  unreportedBytes : UInt64 := 0
  statsEvents : UInt64 := 0
  cleanupRemoved : UInt64 := 0
  /-- Removals that named an older incarnation than the one that is tracked. -/
  cleanupStale : UInt64 := 0
  /-- Removals past the bound on a sweep. -/
  cleanupDeferred : UInt64 := 0
  deriving DecidableEq, Repr

namespace Counters

def add (a b : Counters) : Counters where
  observations := a.observations + b.observations
  unmatchedTarget := a.unmatchedTarget + b.unmatchedTarget
  nonInetSkipped := a.nonInetSkipped + b.nonInetSkipped
  sslMismatch := a.sslMismatch + b.sslMismatch
  emptyData := a.emptyData + b.emptyData
  lookupMiss := a.lookupMiss + b.lookupMiss
  capacityRejected := a.capacityRejected + b.capacityRejected
  capacityEvicted := a.capacityEvicted + b.capacityEvicted
  connectionsCreated := a.connectionsCreated + b.connectionsCreated
  connectionsClosed := a.connectionsClosed + b.connectionsClosed
  protocolsLatched := a.protocolsLatched + b.protocolsLatched
  dataFiltered := a.dataFiltered + b.dataFiltered
  dataChunks := a.dataChunks + b.dataChunks
  truncatedBytes := a.truncatedBytes + b.truncatedBytes
  unreportedBytes := a.unreportedBytes + b.unreportedBytes
  statsEvents := a.statsEvents + b.statsEvents
  cleanupRemoved := a.cleanupRemoved + b.cleanupRemoved
  cleanupStale := a.cleanupStale + b.cleanupStale
  cleanupDeferred := a.cleanupDeferred + b.cleanupDeferred

instance : Add Counters :=
  ⟨add⟩

/-- The counters under the names by which they are reported. -/
def toList (c : Counters) : List (String × UInt64) :=
  [ ("observations", c.observations),
    ("unmatched_target", c.unmatchedTarget),
    ("non_inet_skipped", c.nonInetSkipped),
    ("ssl_mismatch", c.sslMismatch),
    ("empty_data", c.emptyData),
    ("lookup_miss", c.lookupMiss),
    ("capacity_rejected", c.capacityRejected),
    ("capacity_evicted", c.capacityEvicted),
    ("connections_created", c.connectionsCreated),
    ("connections_closed", c.connectionsClosed),
    ("protocols_latched", c.protocolsLatched),
    ("data_filtered", c.dataFiltered),
    ("data_chunks", c.dataChunks),
    ("truncated_bytes", c.truncatedBytes),
    ("unreported_bytes", c.unreportedBytes),
    ("stats_events", c.statsEvents),
    ("cleanup_removed", c.cleanupRemoved),
    ("cleanup_stale", c.cleanupStale),
    ("cleanup_deferred", c.cleanupDeferred) ]

end Counters

end FlowTrace
