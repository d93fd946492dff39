import FlowTrace.Config
import FlowTrace.Observation

/-!
# Piece — how a payload is cut

A moved payload is cut into pieces. A piece stands for a number of bytes of the stream and holds a
leading part of them: what was staged, as far as one chunk may hold it. The bytes that pieces stand
for but do not hold are truncated, and the bytes for which there is no piece are unreported.
-/

namespace FlowTrace

structure Piece where
  size : Nat
  payload : Bytes
  deriving DecidableEq, Repr

namespace Piece

/-- Cuts `remaining` bytes, of which `staged` are at hand, into at most `count` pieces. Every piece
but the last has the full size; the last one stands for all that remains. -/
def ofFlat (maxSize : Nat) : (count remaining : Nat) → (staged : Bytes) → List Piece
  | 0, _, _ => []
  | count + 1, remaining, staged =>
    let size := if maxSize < remaining ∧ count ≠ 0 then maxSize else remaining
    if size = 0 then []
    else
      ⟨size, staged.take (min size maxSize)⟩ ::
        ofFlat maxSize count (remaining - size) (staged.drop size)

/-- Makes one piece of each segment's share of the first `remaining` bytes, unless it is empty. -/
def ofSegments (maxSize : Nat) : (remaining : Nat) → (parts : List Bytes) → List Piece
  | _, [] => []
  | remaining, part :: parts =>
    let size := min part.length remaining
    if size = 0 then ofSegments maxSize remaining parts
    else ⟨size, part.take (min size maxSize)⟩ :: ofSegments maxSize (remaining - size) parts

/-- The bytes that the pieces stand for. -/
def totalSize : List Piece → Nat
  | [] => 0
  | p :: ps => p.size + totalSize ps

/-- The pieces of a flat buffer stand for every byte that moved. -/
theorem totalSize_ofFlat {maxSize count : Nat} (hsize : maxSize ≠ 0) (hcount : count ≠ 0)
    (remaining : Nat) (staged : Bytes) :
    totalSize (ofFlat maxSize count remaining staged) = remaining := by
  induction count generalizing remaining staged with
  | zero => exact absurd rfl hcount
  | succ count ih =>
    rw [ofFlat]
    by_cases hlast : maxSize < remaining ∧ count ≠ 0
    · have hrest := ih hlast.2 (remaining - maxSize) (staged.drop maxSize)
      simp only [if_pos hlast, if_neg hsize, totalSize, hrest]
      omega
    · simp only [if_neg hlast]
      by_cases hzero : remaining = 0
      · simp [hzero, totalSize]
      · have hrest : ofFlat maxSize count 0 (staged.drop remaining) = [] := by
          cases count <;> simp [ofFlat]
        simp [hzero, totalSize, hrest]

/-- A piece that only tells how many bytes there were. -/
def unstaged (size : Nat) : Piece :=
  ⟨size, []⟩

/-- The bytes that the pieces stand for but do not hold. -/
def truncated : List Piece → Nat
  | [] => 0
  | p :: ps => (p.size - p.payload.length) + truncated ps

end Piece

namespace Payload

/-- The pieces of a payload of which a call moved `byteCount` bytes. -/
def pieces (p : Payload) (limits : ChunkLimits) (byteCount : Nat) : List Piece :=
  match p with
  | flat buffer => Piece.ofFlat limits.maxChunkSize limits.maxChunks byteCount buffer
  | segments parts =>
    Piece.ofSegments limits.maxChunkSize byteCount (parts.take limits.maxSegments)

/-- The bytes by which a call is classified, cut to what it moved: the buffer, or the first of the
leading segments that is not empty. A buffer is classified even if it is empty. -/
def sample? (p : Payload) (limits : ChunkLimits) (byteCount : Nat) : Option Bytes :=
  match p with
  | flat buffer => some (buffer.take byteCount)
  | segments parts =>
    ((parts.take limits.inferenceSegments).map (·.take byteCount)).find? fun part => !part.isEmpty

end Payload

end FlowTrace
