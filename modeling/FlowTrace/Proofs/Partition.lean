import FlowTrace.Proofs.Checked.Cutting
import FlowTrace.Proofs.Continuity
import FlowTrace.Proofs.SplitRequest

/-!
# Partition — the chunks of a call, put together again

A payload is cut at several bounds, which do not know of one another: the bytes that the call moved,
those that were staged, the size of a chunk, and the number of chunks or of segments. Wherever the
bounds fall, the reader of the chunks can tell what was cut. The chunks follow one another from the
position of the connection on, each holds the bytes of the stream that stand at its place, and what
none of them holds is counted.

`Piece.Reads` is what pieces have in common, however they are cut: each begins where the one before
ends, and holds what stands there. `DataChunk.Cuts` is what follows from it for chunks.
`Connection.partition_flat` and `Connection.partition_segments` add how many chunks there are and
what they stand for. Both are about the loops that do the cutting on words, and about what is
forwarded, which is the same.
-/

namespace FlowTrace

/-! ## Shares -/

namespace Payload

/-- What each segment has of the first `count` bytes of them all. -/
def shares : (count : Nat) → (parts : List Bytes) → List Bytes
  | _, [] => []
  | count, part :: parts => part.take count :: shares (count - part.length) parts

/-- Together the shares are the first bytes of the segments. -/
theorem flatten_shares (count : Nat) (parts : List Bytes) :
    (shares count parts).flatten = parts.flatten.take count := by
  induction parts generalizing count with
  | nil => simp [shares]
  | cons part parts ih => simp [shares, ih, List.take_append]

/-- The shares of the first `k` segments that are not empty. -/
def filled (k count : Nat) (parts : List Bytes) : List Bytes :=
  (shares count (parts.take k)).filter (!·.isEmpty)

end Payload

/-! ## Pieces -/

namespace Piece

variable {maxSize : Nat}

/-- Each piece begins where the one before it ends, and holds as much of the stream from there on as
a chunk may. -/
def Reads (maxSize : Nat) : (stream : Bytes) → List Piece → Prop
  | _, [] => True
  | stream, p :: ps =>
    p.payload = stream.take (min p.size maxSize) ∧ Reads maxSize (stream.drop p.size) ps

theorem reads_ofFlat (count remaining : Nat) (staged : Bytes) :
    Reads maxSize staged (ofFlat maxSize count remaining staged) := by
  induction count generalizing remaining staged with
  | zero => trivial
  | succ count ih =>
    simp only [ofFlat]
    generalize (if maxSize < remaining ∧ count ≠ 0 then maxSize else remaining) = size
    split
    · trivial
    · exact ⟨rfl, ih _ _⟩

/-- Segments are read as if they were one buffer, whatever comes after them. -/
theorem reads_ofSegments (remaining : Nat) (parts : List Bytes) (more : Bytes) :
    Reads maxSize (parts.flatten ++ more) (ofSegments maxSize remaining parts) := by
  induction parts generalizing remaining with
  | nil => trivial
  | cons part parts ih =>
    simp only [ofSegments, List.flatten_cons, List.append_assoc]
    split
    · next hzero =>
      -- Either the segment is empty, or nothing remains and there are no more pieces.
      rcases Nat.min_eq_zero_iff.1 hzero with hnil | hdone
      · simpa [List.eq_nil_of_length_eq_zero hnil] using ih remaining
      · simp [hdone, Reads]
    · refine ⟨?_, ?_⟩
      · -- The share ends before the segment does.
        have hle : min (min part.length remaining) maxSize ≤ part.length := by omega
        exact (List.take_append_of_le_length hle).symm
      · rcases Nat.le_total part.length remaining with hwhole | hpart
        · simpa [Nat.min_eq_left hwhole] using ih (remaining - part.length)
        · simp [Nat.min_eq_right hpart, Reads]

/-- What the pieces stand for is what they hold, and what is truncated of them. -/
theorem Reads.held_add_truncated {stream : Bytes} {pieces : List Piece}
    (h : Reads maxSize stream pieces) :
    (pieces.flatMap (·.payload)).length + truncated pieces = totalSize pieces := by
  induction pieces generalizing stream with
  | nil => rfl
  | cons p ps ih =>
    have hrest := ih h.2
    have hheld : p.payload.length ≤ p.size := by
      simp only [h.1, List.length_take]
      omega
    simp only [List.flatMap_cons, List.length_append, truncated, totalSize]
    omega

/-! ### Flat buffers -/

@[simp] theorem ofFlat_zero (count : Nat) (staged : Bytes) :
    ofFlat maxSize count 0 staged = [] := by
  cases count <;> simp [ofFlat]

/-- A buffer is cut into as many pieces as it takes, but no more than there may be. -/
theorem length_ofFlat (hsize : maxSize ≠ 0) (count remaining : Nat) (staged : Bytes) :
    (ofFlat maxSize count remaining staged).length =
      min count ((remaining + maxSize - 1) / maxSize) := by
  have hpos : 0 < maxSize := Nat.pos_of_ne_zero hsize
  induction count generalizing remaining staged with
  | zero => simp [ofFlat]
  | succ count ih =>
    simp only [ofFlat]
    by_cases hzero : remaining = 0
    · have hnone : (maxSize - 1) / maxSize = 0 := Nat.div_eq_of_lt (by omega)
      simp [hzero, hnone]
    · -- Something remains, so there is one piece more than what is left after it takes.
      have hceil : (remaining + maxSize - 1) / maxSize = (remaining - 1) / maxSize + 1 := by
        have hsum : remaining + maxSize - 1 = remaining - 1 + maxSize := by omega
        rw [hsum, Nat.add_div_right _ hpos]
      by_cases hlast : maxSize < remaining ∧ count ≠ 0
      · have hrest : remaining - maxSize + maxSize - 1 = remaining - 1 := by omega
        simp only [if_pos hlast, if_neg hsize, List.length_cons, ih, hrest, hceil]
        omega
      · -- The piece takes all: it is the last one there may be, or it has room for what remains.
        have hone : min (count + 1) ((remaining - 1) / maxSize + 1) = 1 := by
          by_cases hcount : count = 0
          · simp [hcount]
          · have hfits : (remaining - 1) / maxSize = 0 := Nat.div_eq_of_lt (by omega)
            simp [hfits]
        simp [if_neg hlast, if_neg hzero, hceil, hone]

/-- Every piece but the last is of the full size. -/
theorem size_of_mem_dropLast_ofFlat {count remaining : Nat} {staged : Bytes} {p : Piece}
    (h : p ∈ (ofFlat maxSize count remaining staged).dropLast) : p.size = maxSize := by
  induction count generalizing remaining staged with
  | zero => simp [ofFlat] at h
  | succ count ih =>
    simp only [ofFlat] at h
    by_cases hlast : maxSize < remaining ∧ count ≠ 0
    · rw [if_pos hlast] at h
      split at h
      · simp at h
      · -- A piece counts here if there are others after it.
        cases hrest : ofFlat maxSize count (remaining - maxSize) (staged.drop maxSize) with
        | nil => simp [hrest] at h
        | cons q qs =>
          rw [hrest, List.dropLast_cons_cons] at h
          rcases List.mem_cons.1 h with rfl | hmem
          · rfl
          · exact ih (hrest ▸ hmem)
    · -- The last piece takes all that remains.
      rw [if_neg hlast, Nat.sub_self, ofFlat_zero] at h
      split at h <;> simp at h

/-! ### Segments -/

/-- The piece of a share. -/
def ofShare (maxSize : Nat) (share : Bytes) : Piece :=
  ⟨share.length, share.take maxSize⟩

/-- There is one piece for each share that is not empty. -/
theorem ofSegments_eq_map (remaining : Nat) (parts : List Bytes) :
    ofSegments maxSize remaining parts =
      ((Payload.shares remaining parts).filter (!·.isEmpty)).map (ofShare maxSize) := by
  induction parts generalizing remaining with
  | nil => rfl
  | cons part parts ih =>
    simp only [ofSegments, Payload.shares]
    have hlength : (part.take remaining).length = min part.length remaining := by
      rw [List.length_take, Nat.min_comm]
    by_cases hempty : part.take remaining = []
    · -- There is no piece, and the share is left out as well.
      have hzero : min part.length remaining = 0 := by
        rw [← hlength, hempty]
        rfl
      have hleft : remaining - part.length = remaining := by omega
      rw [if_pos hzero, hempty, List.filter_cons_of_neg (by decide), hleft]
      exact ih remaining
    · have hsome : min part.length remaining ≠ 0 := by
        rwa [← hlength, Ne, List.length_eq_zero_iff]
      have hkept : (part.take remaining).isEmpty = false := List.isEmpty_eq_false_iff.2 hempty
      have hleft : remaining - min part.length remaining = remaining - part.length := by omega
      -- The share is cut to the count first and to the chunk then, the piece to both at once.
      have hsame : part.take (min (min part.length remaining) maxSize) =
          (part.take remaining).take maxSize := by
        rw [List.take_take, List.take_eq_take_iff]
        omega
      have hpiece : ofShare maxSize (part.take remaining) =
          ⟨min part.length remaining, part.take (min (min part.length remaining) maxSize)⟩ := by
        rw [ofShare, hlength, hsame]
      simp only [if_neg hsome, List.filter_cons, hkept, Bool.not_false, if_true, List.map_cons,
        hpiece, hleft, ih]

theorem totalSize_map_ofShare (shares : List Bytes) :
    totalSize (shares.map (ofShare maxSize)) = shares.flatten.length := by
  induction shares with
  | nil => rfl
  | cons share shares ih => simp [totalSize, ofShare, ih]

/-- The pieces of segments stand for the bytes staged in them, as far as these have moved. -/
theorem totalSize_ofSegments (remaining : Nat) (parts : List Bytes) :
    totalSize (ofSegments maxSize remaining parts) = min remaining parts.flatten.length := by
  calc
    totalSize (ofSegments maxSize remaining parts)
        = ((Payload.shares remaining parts).filter (!·.isEmpty)).flatten.length := by
      rw [ofSegments_eq_map, totalSize_map_ofShare]
    _ = (parts.flatten.take remaining).length := by
      rw [List.flatten_filter_not_isEmpty, Payload.flatten_shares]
    _ = min remaining parts.flatten.length := List.length_take

end Piece

/-! ## Chunks -/

namespace DataChunk

/-- The piece that a chunk was made of. -/
def piece (x : DataChunk) : Piece :=
  ⟨x.size, x.payload⟩

/-- The bytes that some chunks stand for. -/
def totalSize : List DataChunk → Nat
  | [] => 0
  | x :: xs => x.size + totalSize xs

/-- The chunks of `size` bytes of a stream, from `start` on. -/
structure Cuts (maxSize start size : Nat) (stream : Bytes) (header? : Option Header)
    (chunks : List DataChunk) (truncated : Nat) : Prop where
  tiles : Tiles start (start + size) chunks
  totalSize_eq : totalSize chunks = size
  payload_eq : ∀ x ∈ chunks,
    x.payload = (stream.drop (x.position - start)).take (min x.size maxSize)
  held_add_truncated : (chunks.flatMap (·.payload)).length + truncated = size
  header_first : ∀ x, chunks.head? = some x → x.lengthHeader = header?
  header_only : ∀ x ∈ chunks.tail, x.lengthHeader = none

end DataChunk

namespace Connection

section Chunks

variable (c : Connection) (m : Movement)

theorem totalSize_chunks (position : Nat) (header? : Option Header) (pieces : List Piece) :
    DataChunk.totalSize (c.chunks m position header? pieces) = Piece.totalSize pieces := by
  induction pieces generalizing position header? with
  | nil => rfl
  | cons p ps ih => simp [chunks, DataChunk.totalSize, Piece.totalSize, ih]

theorem map_piece_chunks (position : Nat) (header? : Option Header) (pieces : List Piece) :
    (c.chunks m position header? pieces).map DataChunk.piece = pieces := by
  induction pieces generalizing position header? with
  | nil => rfl
  | cons p ps ih => simp [chunks, DataChunk.piece, ih]

/-- A chunk holds what stands at its place. -/
theorem payload_of_mem_chunks {maxSize position : Nat} {header? : Option Header} {stream : Bytes}
    {pieces : List Piece} (hreads : Piece.Reads maxSize stream pieces) {x : DataChunk}
    (hx : x ∈ c.chunks m position header? pieces) :
    x.payload = (stream.drop (x.position - position)).take (min x.size maxSize) := by
  induction pieces generalizing position header? stream with
  | nil => cases hx
  | cons p ps ih =>
    rcases List.mem_cons.1 hx with rfl | hmem
    · simpa using hreads.1
    · -- Its place among the others is counted from the end of the first piece.
      have hstart : position + p.size ≤ x.position := (of_mem_chunks hmem).2.1
      have hoffset : p.size + (x.position - (position + p.size)) = x.position - position := by
        omega
      calc
        x.payload = ((stream.drop p.size).drop (x.position - (position + p.size))).take
            (min x.size maxSize) := ih hreads.2 hmem
        _ = (stream.drop (x.position - position)).take (min x.size maxSize) := by
          rw [List.drop_drop, hoffset]

/-- The chunks of pieces that read a stream cut it. -/
theorem cuts_chunks {maxSize : Nat} (position : Nat) (header? : Option Header) {stream : Bytes}
    {pieces : List Piece} (hreads : Piece.Reads maxSize stream pieces) :
    DataChunk.Cuts maxSize position (Piece.totalSize pieces) stream header?
      (c.chunks m position header? pieces) (Piece.truncated pieces) := by
  refine ⟨tiles_chunks c m position header? pieces, totalSize_chunks c m position header? pieces,
    ?_, ?_, ?_, ?_⟩
  · intro x hx
    exact payload_of_mem_chunks c m hreads hx
  · rw [flatMap_payload_chunks]
    exact hreads.held_add_truncated
  · intro x hx
    cases pieces with
    | nil => cases hx
    | cons p ps =>
      cases hx
      rfl
  · intro x hx
    cases pieces with
    | nil => cases hx
    | cons p ps =>
      cases hheader : x.lengthHeader with
      | none => rfl
      | some found => cases (of_mem_chunks_lengthHeader hx hheader).1

end Chunks

end Connection

/-! ## Calls -/

/-- The chunks of a buffer of which a call has moved `count` bytes: all are full but the last, which
stands for the rest. They hold what was staged, up to what fits into full chunks. -/
structure FlatPartition (limits : ChunkLimits) (start count : Nat) (buffer : Bytes)
    (header? : Option Header) (chunks : List DataChunk) (truncated : Nat) : Prop extends
    DataChunk.Cuts limits.maxChunkSize start count buffer header? chunks truncated where
  length_eq : chunks.length =
    min limits.maxChunks ((count + limits.maxChunkSize - 1) / limits.maxChunkSize)
  full : ∀ x ∈ chunks.dropLast, x.size = limits.maxChunkSize
  held_eq : chunks.flatMap (·.payload) =
    buffer.take (min buffer.length (min count (limits.maxChunkSize * limits.maxChunks)))

/-- The chunks of segments of which a call has moved `count` bytes: one for each share that is not
empty, as far as segments are walked. -/
structure SegmentPartition (limits : ChunkLimits) (start count : Nat) (parts : List Bytes)
    (header? : Option Header) (chunks : List DataChunk) (truncated unreported : Nat) : Prop extends
    DataChunk.Cuts limits.maxChunkSize start
      (min count (parts.take limits.maxSegments).flatten.length) parts.flatten header? chunks
      truncated where
  pieces_eq : chunks.map DataChunk.piece =
    (Payload.filled limits.maxSegments count parts).map (Piece.ofShare limits.maxChunkSize)
  length_le : ∀ x ∈ chunks, x.payload.length ≤ limits.maxChunkSize
  totalSize_add_unreported : DataChunk.totalSize chunks + unreported = count

namespace Connection

section Chunks

variable (c : Connection) (m : Movement) (limits : ChunkLimits)

theorem flatPartition_chunks (hsize : limits.maxChunkSize ≠ 0) (hcount : limits.maxChunks ≠ 0)
    (position count : Nat) (header? : Option Header) (buffer : Bytes) :
    FlatPartition limits position count buffer header?
      (c.chunks m position header? ((Payload.flat buffer).pieces limits count))
      (Piece.truncated ((Payload.flat buffer).pieces limits count)) := by
  simp only [Payload.pieces]
  generalize hpieces : Piece.ofFlat limits.maxChunkSize limits.maxChunks count buffer = pieces
  have htotal : Piece.totalSize pieces = count := by
    simpa [← hpieces] using Piece.totalSize_ofFlat hsize hcount count buffer
  have hreads : Piece.Reads limits.maxChunkSize buffer pieces := by
    simpa [← hpieces] using Piece.reads_ofFlat limits.maxChunks count buffer
  refine ⟨by simpa [htotal] using cuts_chunks c m position header? hreads, ?_, ?_, ?_⟩
  · rw [length_chunks, ← hpieces]
    exact Piece.length_ofFlat hsize limits.maxChunks count buffer
  · intro x hx
    have hmem : x.piece ∈ pieces.dropLast := by
      rw [← map_piece_chunks c m position header? pieces, ← List.map_dropLast]
      exact List.mem_map_of_mem hx
    exact Piece.size_of_mem_dropLast_ofFlat (hpieces ▸ hmem)
  · rw [flatMap_payload_chunks, ← hpieces, Piece.flatMap_payload_ofFlat, List.take_eq_take_iff]
    omega

theorem segmentPartition_chunks (position count : Nat) (header? : Option Header)
    (parts : List Bytes) :
    SegmentPartition limits position count parts header?
      (c.chunks m position header? ((Payload.segments parts).pieces limits count))
      (Piece.truncated ((Payload.segments parts).pieces limits count))
      (count - Piece.totalSize ((Payload.segments parts).pieces limits count)) := by
  simp only [Payload.pieces]
  generalize hpieces : Piece.ofSegments limits.maxChunkSize count (parts.take limits.maxSegments) =
    pieces
  have htotal : Piece.totalSize pieces =
      min count (parts.take limits.maxSegments).flatten.length := by
    rw [← hpieces, Piece.totalSize_ofSegments]
  -- The segments that are not walked come after those that are.
  have hsplit : (parts.take limits.maxSegments).flatten ++ (parts.drop limits.maxSegments).flatten =
      parts.flatten := by
    rw [← List.flatten_append, List.take_append_drop]
  have hreads : Piece.Reads limits.maxChunkSize parts.flatten pieces := by
    rw [← hpieces, ← hsplit]
    exact Piece.reads_ofSegments count _ _
  have hcuts := cuts_chunks c m position header? hreads
  rw [htotal] at hcuts
  refine ⟨hcuts, ?_, ?_, ?_⟩
  · rw [map_piece_chunks, ← hpieces]
    exact Piece.ofSegments_eq_map count _
  · intro x hx
    rw [hcuts.payload_eq x hx, List.length_take]
    omega
  · rw [hcuts.totalSize_eq, htotal]
    omega

end Chunks

/-- Limits under which three bytes fill a chunk. -/
def tight : ChunkLimits where
  maxChunkSize := 3
  maxChunks := 3
  maxSegments := 4
  inferenceSegments := 1

theorem workable_tight : Checked.Workable tight := by
  constructor <;> decide

/-- A connection that has written a hundred bytes. -/
def midway : Connection :=
  (start ⟨⟨7, 3⟩, 1, 1⟩ .unknown .client).addBytes .egress 100

/-- A call that writes ten bytes, after a header that was written before. -/
def writing (payload : Payload) : Movement where
  timestamp := ⟨200⟩
  operation := .write
  direction := .egress
  byteCount := 10
  content := .staged payload
  lengthHeader := some ⟨0, 0, 0, 10⟩

variable {c : Connection} {m : Movement} {limits : ChunkLimits}

/-- However much of a buffer was staged, the loop that cuts it does not stop, and its chunks are the
partition of what the call has moved. No byte is left unreported, and what is forwarded is what the
loop has cut. -/
theorem partition_flat (hlimits : Checked.Workable limits) {buffer : Bytes}
    (hcontent : m.content = .staged (.flat buffer))
    (hword : c.position m.direction + m.byteCount ≤ maxWord) :
    ∃ cut : Checked.Cut,
      Checked.cutPayload c m limits (.flat buffer) = pure (cut, 0) ∧
      FlatPartition limits (c.position m.direction) m.byteCount buffer m.lengthHeader cut.chunks
        cut.truncated ∧
      ∀ control force, control.sends force c = true →
        c.forward limits control force m =
          (cut.chunks,
            { dataChunks := .ofNat cut.chunks.length
              truncatedBytes := .ofNat cut.truncated
              unreportedBytes := 0 }) := by
  have hpartition := flatPartition_chunks c m limits hlimits.maxChunkSize_ne
    hlimits.maxChunks_ne (c.position m.direction) m.byteCount m.lengthHeader buffer
  have htotal : Piece.totalSize ((Payload.flat buffer).pieces limits m.byteCount) = m.byteCount :=
    Piece.totalSize_ofFlat hlimits.maxChunkSize_ne hlimits.maxChunks_ne _ _
  have hcut := Checked.cutPayload_eq c m hlimits hword (.flat buffer)
  rw [htotal, Nat.sub_self] at hcut
  refine ⟨_, hcut, ?_, ?_⟩
  · simpa [Checked.Cut.extend, Checked.Cut.start] using hpartition
  · intro control force hsends
    simp [forward, hsends, Movement.pieces, hcontent, htotal, length_chunks, Checked.Cut.extend,
      Checked.Cut.start]

/-- Staging ends in the second chunk, and the last one stands for more than a chunk may hold. -/
theorem partition_flat_short :
    Checked.Workable tight ∧ midway.position .egress + 10 ≤ maxWord ∧
      ∃ cut : Checked.Cut,
        Checked.cutPayload midway (writing (.flat [1, 2, 3, 4])) tight (.flat [1, 2, 3, 4]) =
          pure (cut, 0) ∧
        FlatPartition tight 100 10 [1, 2, 3, 4] (some ⟨0, 0, 0, 10⟩) cut.chunks cut.truncated ∧
        cut.chunks.map DataChunk.piece = [⟨3, [1, 2, 3]⟩, ⟨3, [4]⟩, ⟨4, []⟩] ∧
        cut.truncated = 6 := by
  have hword : midway.position .egress + 10 ≤ maxWord := by decide
  rcases partition_flat (c := midway) (m := writing (.flat [1, 2, 3, 4])) workable_tight rfl hword
    with ⟨cut, hcut, hpartition, -⟩
  have hrun : (Checked.cutPayload midway (writing (.flat [1, 2, 3, 4])) tight
      (.flat [1, 2, 3, 4])).map (fun p => (p.1.chunks.map DataChunk.piece, p.1.truncated)) =
        .ok ([⟨3, [1, 2, 3]⟩, ⟨3, [4]⟩, ⟨4, []⟩], 6) := by decide
  rw [hcut] at hrun
  have hseen := Prod.mk.inj (Except.ok.inj hrun)
  exact ⟨workable_tight, hword, cut, hcut, hpartition, hseen.1, hseen.2⟩

/-- Whatever the segments are, the loop that walks them does not stop, and its chunks are the
partition of what the call has moved, as far as it was staged in the segments that are walked. The
rest is unreported, and what is forwarded is what the loop has cut. -/
theorem partition_segments (hlimits : Checked.Workable limits) {parts : List Bytes}
    (hcontent : m.content = .staged (.segments parts))
    (hword : c.position m.direction + m.byteCount ≤ maxWord) :
    ∃ (cut : Checked.Cut) (unreported : Nat),
      Checked.cutPayload c m limits (.segments parts) = pure (cut, unreported) ∧
      SegmentPartition limits (c.position m.direction) m.byteCount parts m.lengthHeader cut.chunks
        cut.truncated unreported ∧
      ∀ control force, control.sends force c = true →
        c.forward limits control force m =
          (cut.chunks,
            { dataChunks := .ofNat cut.chunks.length
              truncatedBytes := .ofNat cut.truncated
              unreportedBytes := .ofNat unreported }) := by
  have hpartition := segmentPartition_chunks c m limits (c.position m.direction) m.byteCount
    m.lengthHeader parts
  refine ⟨_, _, Checked.cutPayload_eq c m hlimits hword (.segments parts), ?_, ?_⟩
  · simpa [Checked.Cut.extend, Checked.Cut.start] using hpartition
  · intro control force hsends
    simp [forward, hsends, Movement.pieces, hcontent, length_chunks, Checked.Cut.extend,
      Checked.Cut.start]

/-- The header stands before the first segment that is not empty. One byte does not fit into its
chunk, and four bytes were staged past the segments that are walked, or nowhere. -/
theorem partition_segments_ragged :
    Checked.Workable tight ∧ midway.position .egress + 10 ≤ maxWord ∧
      ∃ (cut : Checked.Cut) (unreported : Nat),
        Checked.cutPayload midway (writing (.segments [[], [1, 2, 3, 4], [], [5, 6], [7]])) tight
          (.segments [[], [1, 2, 3, 4], [], [5, 6], [7]]) = pure (cut, unreported) ∧
        SegmentPartition tight 100 10 [[], [1, 2, 3, 4], [], [5, 6], [7]] (some ⟨0, 0, 0, 10⟩)
          cut.chunks cut.truncated unreported ∧
        cut.chunks.map DataChunk.piece = [⟨4, [1, 2, 3]⟩, ⟨2, [5, 6]⟩] ∧
        cut.truncated = 1 ∧ unreported = 4 := by
  have hword : midway.position .egress + 10 ≤ maxWord := by decide
  rcases partition_segments (c := midway)
      (m := writing (.segments [[], [1, 2, 3, 4], [], [5, 6], [7]])) workable_tight rfl hword with
    ⟨cut, unreported, hcut, hpartition, -⟩
  have hrun : (Checked.cutPayload midway (writing (.segments [[], [1, 2, 3, 4], [], [5, 6], [7]]))
      tight (.segments [[], [1, 2, 3, 4], [], [5, 6], [7]])).map
        (fun p => (p.1.chunks.map DataChunk.piece, p.1.truncated, p.2)) =
          .ok ([⟨4, [1, 2, 3]⟩, ⟨2, [5, 6]⟩], 1, 4) := by decide
  rw [hcut] at hrun
  have hseen := Prod.mk.inj (Except.ok.inj hrun)
  have hcounts := Prod.mk.inj hseen.2
  exact ⟨workable_tight, hword, cut, unreported, hcut, hpartition, hseen.1, hcounts.1, hcounts.2⟩

end Connection

end FlowTrace
