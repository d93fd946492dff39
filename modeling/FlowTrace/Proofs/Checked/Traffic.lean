import FlowTrace.Proofs.Checked.Cutting
import FlowTrace.Proofs.Checked.Detection
import FlowTrace.Proofs.Reaction

/-!
# Checked traffic — no call stops a connection that has room for it

A call is classified and then moves. The sample is sliced off what was staged, two counts grow by
one, and the payload is cut from the position of its direction on. `HasRoom` says what the
connection has to bring along for all of this to fit into words: counts that can grow, and a
position that stays within a word if the connection takes the call.
-/

namespace FlowTrace

/-- The counts of a connection can grow, and an incident keeps its positions within a word. -/
structure Connection.HasRoom (c : Connection) (i : Incident) : Prop where
  sampleCount_lt : c.sampleCount < maxWord
  matchCount_lt : c.matchCount < maxWord
  position_le : ∀ d, c.position d + c.adds d i ≤ maxWord

namespace Checked

variable (c : Connection) (config : Config) (control : Control) (force : Bool)

/-! ## Samples -/

/-- Slices the samples off, up to the first one that is not empty. -/
def firstSample (byteCount : Nat) : List Bytes → Checked (Option Bytes)
  | [] => return none
  | part :: parts => do
    let sample ← slice part 0 (min part.length byteCount)
    if sample.isEmpty then firstSample byteCount parts else return some sample

def sample? (payload : Payload) (limits : ChunkLimits) (byteCount : Nat) :
    Checked (Option Bytes) :=
  match payload with
  | .flat buffer => do
    let sample ← slice buffer 0 (min buffer.length byteCount)
    return some sample
  | .segments parts => firstSample byteCount (parts.take limits.inferenceSegments)

theorem firstSample_eq (byteCount : Nat) (parts : List Bytes) :
    firstSample byteCount parts =
      pure ((parts.map (·.take byteCount)).find? fun part => !part.isEmpty) := by
  induction parts with
  | nil => rfl
  | cons part parts ih =>
    simp only [firstSample, slice_clamp, pure_bind, List.map_cons, List.find?_cons]
    cases (part.take byteCount).isEmpty with
    | true => exact ih
    | false => rfl

theorem sample?_eq (payload : Payload) (limits : ChunkLimits) (byteCount : Nat) :
    sample? payload limits byteCount = pure (payload.sample? limits byteCount) := by
  cases payload with
  | flat buffer =>
    rw [sample?, slice_clamp]
    rfl
  | segments parts => exact firstSample_eq _ _

/-! ## Classification -/

def classify (e : Classifier) (d : Direction) (sample : Bytes) : Checked Connection := do
  let sampleCount ← add c.sampleCount 1
  let (verdict, carry) ← infer sample c.carry e c.protocol
  let seen := { c with carry, sampleCount }
  if !verdict.protocol.isKnown || c.protocol == .mongo then return seen
  let protocol := if c.protocol.isKnown then c.protocol else verdict.protocol
  let matchCount ← if verdict.protocol = protocol then add c.matchCount 1 else pure c.matchCount
  return { seen with
    protocol
    matchCount
    role := if c.role.isResolved then c.role else Role.ofTraffic d verdict.messageType }

def sampled (o : Transfer) : Checked Connection := do
  let c := { c with carry := c.carry.clearPrepend }
  match ← sample? o.payload config.chunkLimits o.byteCount with
  | some sample => classify c ⟨config.enabledProtocols⟩ o.direction sample
  | none => return c

variable {c}

theorem classify_eq (hsamples : c.sampleCount < maxWord) (hmatches : c.matchCount < maxWord)
    (e : Classifier) (d : Direction) (sample : Bytes) :
    classify c e d sample = pure (c.classify e d sample) := by
  have hsample : add c.sampleCount 1 = pure (c.sampleCount + 1) := add_eq hsamples
  have hmatch : add c.matchCount 1 = pure (c.matchCount + 1) := add_eq hmatches
  simp only [classify, hsample, hmatch, infer_eq, pure_bind, Connection.classify]
  cases hknown : (e.infer sample c.carry c.protocol).1.protocol.isKnown with
  | false => rfl
  | true =>
    -- Where MongoDB was found, nothing is recognised any more.
    have hmongo : (c.protocol == .mongo) = false := by
      apply beq_false_of_ne
      intro hmongo
      rw [hmongo, Classifier.infer_mongo] at hknown
      cases hknown
    generalize (if c.protocol.isKnown = true then c.protocol
      else (e.infer sample c.carry c.protocol).1.protocol) = p
    by_cases hsame : (e.infer sample c.carry c.protocol).1.protocol = p <;> simp [hmongo, hsame]

theorem sampled_eq {i : Incident} (h : c.HasRoom i) (o : Transfer) :
    sampled c config o = pure (c.sampled config o) := by
  simp only [sampled, sample?_eq, pure_bind, Connection.sampled]
  cases o.payload.sample? config.chunkLimits o.byteCount with
  | none => rfl
  | some sample => exact classify_eq h.sampleCount_lt h.matchCount_lt _ _ _

/-! ## Calls -/

variable (c)

def move (m : Movement) : Checked Reaction := do
  let (chunks, forwarded) ← forward c m config.chunkLimits control force
  let (connection, report?) := c.account config.statsThreshold m
  return {
    connection
    events := chunks.map .data ++ report?.toList.map .stats
    tally := forwarded + { statsEvents := report?.toList.length.toUInt64 } }

def transfer (o : Transfer) : Checked Reaction := do
  if !c.address.isTraceable then return ⟨c, [], { nonInetSkipped := 1 }⟩
  if c.ssl != o.ssl then return ⟨c, [], { sslMismatch := 1 }⟩
  let sampled ← sampled c config o
  let latched := !c.protocol.isKnown && sampled.protocol.isKnown
  let moved ← move sampled config control force (o.movement sampled.carry.lengthHeader)
  return { moved with tally := moved.tally + { protocolsLatched := if latched then 1 else 0 } }

def transferFile (o : FileTransfer) : Checked Reaction := do
  if !c.address.isTraceable then return ⟨c, [], { nonInetSkipped := 1 }⟩
  move c config control force o.movement

variable {c config}

theorem move_eq (hlimits : Workable config.chunkLimits) {m : Movement}
    (hword : c.position m.direction + m.byteCount ≤ maxWord) :
    move c config control force m = pure (c.move config control force m) := by
  rw [move, forward_eq c m control force hlimits hword]
  rfl

theorem transfer_eq (hlimits : Workable config.chunkLimits) {o : Transfer}
    (h : c.HasRoom (.data o)) :
    transfer c config control force o = pure (c.transfer config control force o) := by
  simp only [transfer, Connection.transfer]
  cases htraceable : c.address.isTraceable with
  | false => rfl
  | true =>
    cases hssl : c.ssl != o.ssl with
    | true => rfl
    | false =>
      have htakes : c.takes o = true := by
        simpa [Connection.takes, htraceable] using hssl
      have hword : (c.sampled config o).position o.direction + o.byteCount ≤ maxWord := by
        simpa [Connection.adds, htakes] using h.position_le o.direction
      have hmove := move_eq control force hlimits
        (m := o.movement (c.sampled config o).carry.lengthHeader) hword
      simp only [Bool.not_true, Bool.false_eq_true, if_false, sampled_eq config h, pure_bind, hmove]
      rfl

theorem transferFile_eq (hlimits : Workable config.chunkLimits) {o : FileTransfer}
    (h : c.HasRoom (.sendfile o)) :
    transferFile c config control force o = pure (c.transferFile config control force o) := by
  simp only [transferFile, Connection.transferFile]
  cases htraceable : c.address.isTraceable with
  | false => rfl
  | true =>
    have hword : c.position .egress + o.byteCount ≤ maxWord := by
      simpa [Connection.adds, htraceable] using h.position_le .egress
    exact move_eq control force hlimits (m := o.movement) hword

end Checked

end FlowTrace
