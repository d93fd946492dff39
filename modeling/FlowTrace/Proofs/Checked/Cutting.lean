import FlowTrace.Proofs.Checked.Arithmetic
import FlowTrace.Proofs.Ledger
import FlowTrace.Proofs.Position

/-!
# Checked cutting — no count stops the cutting of a payload

How many bytes a call has moved and how many of them were staged are told apart, and either may be
the larger one. Cutting subtracts the one kind of count from the other, and slices what was staged
by the result. Here a payload is cut by the loops that do so, with a running state: `Cut.Fits` is
what every round relies on, and `Cut.fits_extend` says that every round keeps it. The loops end with
the pieces that `Piece.ofFlat` and `Piece.ofSegments` define by recursion.
-/

namespace FlowTrace

/-- Where nothing remains, no segment has a share. -/
@[simp] theorem Piece.ofSegments_zero (maxSize : Nat) (parts : List Bytes) :
    ofSegments maxSize 0 parts = [] := by
  induction parts with
  | nil => rfl
  | cons part parts ih => simp [ofSegments, ih]

namespace Checked

variable (c : Connection) (m : Movement) (limits : ChunkLimits)

/-! ## The state of the loops -/

/-- What was cut of a movement so far. -/
structure Cut where
  chunks : List DataChunk
  /-- Bytes that a chunk stands for but does not hold. -/
  truncated : Nat
  /-- Bytes that a chunk stands for. -/
  sent : Nat
  /-- Where the next chunk stands. -/
  position : Nat

namespace Cut

def start : Cut where
  chunks := []
  truncated := 0
  sent := 0
  position := c.position m.direction

variable (cut : Cut) (header? : Option Header) (p : Piece) (ps : List Piece)

def push : Checked Cut := do
  let missing ← sub p.size p.payload.length
  let truncated ← add cut.truncated missing
  let sent ← add cut.sent p.size
  let position ← add cut.position p.size
  return { chunks := cut.chunks ++ c.chunks m cut.position header? [p], truncated, sent, position }

/-- What is cut once all the pieces are. -/
def extend : Cut where
  chunks := cut.chunks ++ c.chunks m cut.position header? ps
  truncated := cut.truncated + Piece.truncated ps
  sent := cut.sent + Piece.totalSize ps
  position := cut.position + Piece.totalSize ps

@[simp] theorem extend_nil : cut.extend c m header? [] = cut := by
  simp [extend, Connection.chunks, Piece.truncated, Piece.totalSize]

theorem sent_extend : (cut.extend c m header? [p]).sent = cut.sent + p.size :=
  rfl

/-- Only the first piece gets the header. -/
theorem extend_extend :
    (cut.extend c m header? [p]).extend c m none ps = cut.extend c m header? (p :: ps) := by
  simp [extend, Connection.chunks, Piece.truncated, Piece.totalSize, Nat.add_assoc]

/-- Nothing was cut that did not move, and there is room in a word for what is left. -/
structure Fits : Prop where
  sent_le : cut.sent ≤ m.byteCount
  truncated_le : cut.truncated ≤ cut.sent
  position_le : cut.position + (m.byteCount - cut.sent) ≤ maxWord
  byteCount_le : m.byteCount ≤ maxWord

theorem fits_start (hword : c.position m.direction + m.byteCount ≤ maxWord) :
    (start c m).Fits m :=
  ⟨Nat.zero_le _, Nat.le_refl _, hword, Nat.le_trans (Nat.le_add_left _ _) hword⟩

variable {c m cut header? p}

/-- A piece of what is left is cut without a stop. -/
theorem push_eq (h : cut.Fits m) (hsize : cut.sent + p.size ≤ m.byteCount)
    (hpayload : p.payload.length ≤ p.size) :
    cut.push c m header? p = pure (cut.extend c m header? [p]) := by
  rcases h with ⟨hsent, htruncated, hposition, hbyteCount⟩
  rw [push, sub_eq hpayload, pure_bind, add_eq (by omega), pure_bind, add_eq (by omega), pure_bind,
    add_eq (by omega), pure_bind]
  simp [extend, Piece.truncated, Piece.totalSize]

/-- Past the last word there is no room for a piece. -/
example : (Cut.mk [] 0 0 maxWord).push c m none ⟨1, []⟩ = throw .overflow :=
  rfl

theorem fits_extend (h : cut.Fits m) (hsize : cut.sent + p.size ≤ m.byteCount) :
    (cut.extend c m header? [p]).Fits m := by
  rcases h with ⟨hsent, htruncated, hposition, hbyteCount⟩
  have htotal : Piece.totalSize [p] = p.size := rfl
  have hmissing : Piece.truncated [p] = p.size - p.payload.length := rfl
  refine ⟨?_, ?_, ?_, hbyteCount⟩ <;> simp only [extend, htotal, hmissing] <;> omega

/-- A piece holds no more of what was staged than it stands for. -/
theorem push_take_eq (h : cut.Fits m) {size : Nat} (hsize : cut.sent + size ≤ m.byteCount)
    (maxSize : Nat) (staged : Bytes) :
    cut.push c m header? ⟨size, staged.take (min size maxSize)⟩ =
      pure (cut.extend c m header? [⟨size, staged.take (min size maxSize)⟩]) :=
  push_eq h hsize (Nat.le_trans (List.length_take_le _ _) (Nat.min_le_left _ _))

end Cut

/-! ## Flat buffers -/

/-- The rounds that are left of the loop over a flat buffer, from round `i` on. -/
def rounds (buffer : Bytes) : (count i : Nat) → Cut → Checked Cut
  | 0, _, cut => return cut
  | count + 1, i, cut => do
    let remaining ← sub m.byteCount cut.sent
    let ordinal ← add i 1
    let size := if limits.maxChunkSize < remaining ∧ ordinal ≠ limits.maxChunks then
      limits.maxChunkSize else remaining
    if size = 0 then return cut
    let staged := buffer.drop cut.sent
    let payload ← slice staged 0 (min (min size limits.maxChunkSize) staged.length)
    let cut ← cut.push c m (if i = 0 then m.lengthHeader else none) ⟨size, payload⟩
    rounds buffer count (i + 1) cut

theorem rounds_eq {limits : ChunkLimits} (hmax : limits.maxChunks ≤ maxWord) (buffer : Bytes)
    {count i : Nat} (hcount : i + count = limits.maxChunks) {cut : Cut} (hfits : cut.Fits m) :
    rounds c m limits buffer count i cut =
      pure (cut.extend c m (if i = 0 then m.lengthHeader else none)
        (Piece.ofFlat limits.maxChunkSize count (m.byteCount - cut.sent)
          (buffer.drop cut.sent))) := by
  induction count generalizing i cut with
  | zero => simp [rounds, Piece.ofFlat]
  | succ count ih =>
    -- The last round is the one after which none is left.
    have hlast : i + 1 ≠ limits.maxChunks ↔ count ≠ 0 := by omega
    simp only [rounds, sub_eq hfits.sent_le, add_eq (m := i) (n := 1) (by omega), pure_bind, hlast,
      Piece.ofFlat]
    generalize hsize : (if limits.maxChunkSize < m.byteCount - cut.sent ∧ count ≠ 0 then
      limits.maxChunkSize else m.byteCount - cut.sent) = size
    by_cases hzero : size = 0
    · simp [hzero]
    · have hle : cut.sent + size ≤ m.byteCount := by
        have hsent := hfits.sent_le
        split at hsize <;> omega
      generalize hstaged : buffer.drop cut.sent = staged
      have hslice : slice staged 0 (min (min size limits.maxChunkSize) staged.length) =
          pure (staged.take (min size limits.maxChunkSize)) := by
        rw [Nat.min_comm, slice_clamp]
      -- The next round starts from what this piece leaves.
      have hdrop : buffer.drop (cut.sent + size) = staged.drop size := by
        rw [← hstaged, List.drop_drop]
      simp only [if_neg hzero, hslice, pure_bind, Cut.push_take_eq hfits hle]
      rw [ih (by omega) (Cut.fits_extend hfits hle), if_neg (Nat.succ_ne_zero i), Cut.sent_extend,
        hdrop, ← Nat.sub_sub, Cut.extend_extend]

/-! ## Segments -/

/-- The rest of the loop over the segments. -/
def walk : (parts : List Bytes) → Cut → Checked Cut
  | [], cut => return cut
  | part :: parts, cut => do
    if m.byteCount ≤ cut.sent then return cut
    let remaining ← sub m.byteCount cut.sent
    let size := min part.length remaining
    if size = 0 then walk parts cut
    else
      let payload ← slice part 0 (min size limits.maxChunkSize)
      let cut ← cut.push c m (if cut.chunks.isEmpty then m.lengthHeader else none) ⟨size, payload⟩
      walk parts cut

theorem walk_eq (parts : List Bytes) {cut : Cut} (hfits : cut.Fits m) :
    walk c m limits parts cut =
      pure (cut.extend c m (if cut.chunks.isEmpty then m.lengthHeader else none)
        (Piece.ofSegments limits.maxChunkSize (m.byteCount - cut.sent) parts)) := by
  induction parts generalizing cut with
  | nil => simp [walk, Piece.ofSegments]
  | cons part parts ih =>
    by_cases hdone : m.byteCount ≤ cut.sent
    · simp [walk, if_pos hdone, Nat.sub_eq_zero_of_le hdone]
    · simp only [walk, if_neg hdone, sub_eq hfits.sent_le, pure_bind, Piece.ofSegments]
      generalize hsize : min part.length (m.byteCount - cut.sent) = size
      by_cases hzero : size = 0
      · rw [if_pos hzero, if_pos hzero, ih hfits]
      · have hle : cut.sent + size ≤ m.byteCount := by omega
        have hslice : slice part 0 (min size limits.maxChunkSize) =
            pure (part.take (min size limits.maxChunkSize)) := slice_zero (by omega)
        have hchunks : ∀ header? p, (cut.extend c m header? [p]).chunks.isEmpty = false := by
          intro header? p
          simp [Cut.extend, Connection.chunks]
        simp only [if_neg hzero, hslice, pure_bind, Cut.push_take_eq hfits hle]
        rw [ih (Cut.fits_extend hfits hle), hchunks, Cut.sent_extend, ← Nat.sub_sub]
        exact congrArg pure (Cut.extend_extend c m cut _ _ _)

/-! ## Calls -/

/-- What is cut of a payload, and the bytes for which there is no chunk. -/
def cutPayload (payload : Payload) : Checked (Cut × Nat) :=
  match payload with
  | .flat buffer => do
    let cut ← rounds c m limits buffer limits.maxChunks 0 (.start c m)
    return (cut, 0)
  | .segments parts => do
    let cut ← walk c m limits (parts.take limits.maxSegments) (.start c m)
    let unreported ← sub m.byteCount cut.sent
    return (cut, unreported)

variable (control : Control) (force : Bool)

/-- The masks are a table with one row per protocol index. -/
def mask (p : Protocol) : Checked TraceMask :=
  index (Protocol.all.map control.masks) p.index

def sends : Checked Bool := do
  if control.selfPid == some c.id.key.pid then return false
  if c.isDisabled then return false
  if force then return true
  if !c.protocol.isKnown then return false
  return (← mask control c.protocol).allows c.role

def forward : Checked (List DataChunk × Counters) := do
  if ← sends c control force then
    match m.content with
    | .staged payload =>
      let (cut, unreported) ← cutPayload c m limits payload
      return (cut.chunks,
        { dataChunks := cut.chunks.length.toUInt64
          truncatedBytes := cut.truncated.toUInt64
          unreportedBytes := unreported.toUInt64 })
    | .file =>
      return (c.chunks m (c.position m.direction) m.lengthHeader [.unstaged m.byteCount],
        { dataChunks := 1, truncatedBytes := m.byteCount.toUInt64 })
  else return ([], { dataFiltered := 1 })

theorem mask_eq (p : Protocol) : mask control p = pure (control.masks p) := by
  apply index_eq
  rw [List.getElem?_map, Protocol.all_index]
  rfl

theorem sends_eq : sends c control force = pure (control.sends force c) := by
  simp only [sends, Control.sends, mask_eq, pure_bind, bne]
  cases control.selfPid == some c.id.key.pid <;> cases c.isDisabled <;> cases force <;>
    cases c.protocol.isKnown <;> rfl

/-- Limits that a loop can work with: there is something to do, and rounds are counted in words. -/
structure Workable (limits : ChunkLimits) : Prop where
  maxChunkSize_ne : limits.maxChunkSize ≠ 0
  maxChunks_ne : limits.maxChunks ≠ 0
  maxChunks_le : limits.maxChunks ≤ maxWord

variable {limits}

/-- The loops cut the payload into its pieces. -/
theorem cutPayload_eq (hlimits : Workable limits)
    (hword : c.position m.direction + m.byteCount ≤ maxWord) (payload : Payload) :
    cutPayload c m limits payload =
      pure ((Cut.start c m).extend c m m.lengthHeader (payload.pieces limits m.byteCount),
        m.byteCount - Piece.totalSize (payload.pieces limits m.byteCount)) := by
  have hfits := Cut.fits_start c m hword
  cases payload with
  | flat buffer =>
    have htotal : Piece.totalSize ((Payload.flat buffer).pieces limits m.byteCount) =
        m.byteCount := Piece.totalSize_ofFlat hlimits.maxChunkSize_ne hlimits.maxChunks_ne _ _
    rw [htotal, Nat.sub_self]
    simp only [cutPayload, rounds_eq c m hlimits.maxChunks_le buffer (Nat.zero_add _) hfits]
    rfl
  | segments parts =>
    have htotal : Piece.totalSize ((Payload.segments parts).pieces limits m.byteCount) ≤
        m.byteCount := Piece.totalSize_ofSegments_le _ _
    simp only [cutPayload, walk_eq c m limits _ hfits, pure_bind]
    rw [sub_eq (by simpa [Cut.extend, Cut.start, Payload.pieces] using htotal), pure_bind]
    simp [Cut.extend, Cut.start, Payload.pieces]

theorem forward_eq (hlimits : Workable limits)
    (hword : c.position m.direction + m.byteCount ≤ maxWord) :
    forward c m limits control force = pure (c.forward limits control force m) := by
  simp only [forward, sends_eq, pure_bind, Connection.forward]
  cases control.sends force c with
  | false => rfl
  | true =>
    cases hcontent : m.content with
    | staged payload =>
      simp only [if_true, cutPayload_eq c m hlimits hword, pure_bind, Movement.pieces, hcontent]
      simp [Cut.extend, Cut.start, Connection.length_chunks]
    | file => simp [Movement.pieces, hcontent, Piece.unstaged, Piece.truncated, Piece.totalSize]

end Checked

end FlowTrace
