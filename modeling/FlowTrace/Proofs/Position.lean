import FlowTrace.Proofs.Accounting

/-!
# Position — the chunks of a direction never overlap or run backwards

Chunks are placed by the sizes of the pieces before them, while the position of the connection moves
by the bytes of the whole call. The two agree at the start of each call only: pieces may stand for
less than what the call moved, if segments are left out or are shorter than announced, but never for
more. So every call keeps its chunks inside its own stretch of the stream, and the stretches of an
incarnation follow one another.
-/

namespace FlowTrace

/-! ## Pieces -/

namespace Piece

/-- A piece stands for some bytes and holds no more than these, nor more than a chunk may. -/
structure Fits (maxSize : Nat) (p : Piece) : Prop where
  size_pos : 0 < p.size
  length_le : p.payload.length ≤ min p.size maxSize

variable {maxSize : Nat}

theorem totalSize_ofFlat_le (count remaining : Nat) (staged : Bytes) :
    totalSize (ofFlat maxSize count remaining staged) ≤ remaining := by
  induction count generalizing remaining staged with
  | zero => exact Nat.zero_le _
  | succ count ih =>
    simp only [ofFlat]
    generalize hsize : (if maxSize < remaining ∧ count ≠ 0 then maxSize else remaining) = size
    -- A piece never stands for more than what remains.
    have hle : size ≤ remaining := by
      rw [← hsize]
      split
      · omega
      · exact Nat.le_refl _
    have hrest := ih (remaining - size) (staged.drop size)
    split
    · exact Nat.zero_le _
    · simp only [totalSize]
      omega

theorem totalSize_ofSegments_le (remaining : Nat) (parts : List Bytes) :
    totalSize (ofSegments maxSize remaining parts) ≤ remaining := by
  induction parts generalizing remaining with
  | nil => exact Nat.zero_le _
  | cons part parts ih =>
    have hrest := ih (remaining - min part.length remaining)
    simp only [ofSegments]
    split
    · exact ih remaining
    · simp only [totalSize]
      omega

end Piece

namespace Movement

variable (m : Movement) (limits : ChunkLimits)

/-- The pieces stand for no more than what moved. -/
theorem totalSize_pieces_le : Piece.totalSize (m.pieces limits) ≤ m.byteCount := by
  unfold pieces
  split
  · next payload _ =>
    cases payload with
    | flat buffer => exact Piece.totalSize_ofFlat_le _ _ _
    | segments parts => exact Piece.totalSize_ofSegments_le _ _
  · exact Nat.le_refl _

end Movement

/-! ## The chunks of one call -/

/-- One chunk ends before another one begins. -/
def DataChunk.Precedes (a b : DataChunk) : Prop :=
  a.position + a.size ≤ b.position

/-- Chunks that keep to the `count` bytes from `start` on, one after the other. -/
structure KeepsTo (maxSize start count : Nat) (chunks : List DataChunk) : Prop where
  fits : ∀ x ∈ chunks, 0 < x.size ∧ x.payload.length ≤ min x.size maxSize
  within : ∀ x ∈ chunks, start ≤ x.position ∧ x.position + x.size ≤ start + count
  ordered : chunks.Pairwise DataChunk.Precedes

namespace KeepsTo

variable {maxSize start count count' : Nat} {chunks chunks' : List DataChunk}

theorem nil : KeepsTo maxSize start count [] := by
  refine ⟨?_, ?_, List.Pairwise.nil⟩
  · intro x hx
    cases hx
  · intro x hx
    cases hx

/-- Stretches that follow one another make one stretch. -/
theorem append (h : KeepsTo maxSize start count chunks)
    (h' : KeepsTo maxSize (start + count) count' chunks') :
    KeepsTo maxSize start (count + count') (chunks ++ chunks') := by
  refine ⟨?_, ?_, ?_⟩
  · intro x hx
    rcases List.mem_append.1 hx with hx | hx
    · exact h.fits x hx
    · exact h'.fits x hx
  · intro x hx
    rcases List.mem_append.1 hx with hx | hx
    · have hwithin := h.within x hx
      omega
    · have hwithin := h'.within x hx
      omega
  · refine List.pairwise_append.2 ⟨h.ordered, h'.ordered, ?_⟩
    intro x hx y hy
    have hstop := (h.within x hx).2
    have hstart := (h'.within y hy).1
    exact Nat.le_trans hstop hstart

end KeepsTo

namespace Connection

variable {c : Connection} {m : Movement}

/-- A chunk is made of a piece, and lies between the first position and the last. -/
theorem of_mem_chunks {position : Nat} {header : Option Header} {pieces : List Piece}
    {chunk : DataChunk} (h : chunk ∈ c.chunks m position header pieces) :
    chunk.direction = m.direction ∧ position ≤ chunk.position ∧
      chunk.position + chunk.size ≤ position + Piece.totalSize pieces ∧
      ∃ p ∈ pieces, chunk.size = p.size ∧ chunk.payload = p.payload := by
  induction pieces generalizing position header with
  | nil => cases h
  | cons p ps ih =>
    simp only [Piece.totalSize]
    rcases List.mem_cons.1 h with rfl | hmem
    · -- The first chunk stands at the first position.
      refine ⟨rfl, Nat.le_refl _, ?_, p, List.mem_cons_self, rfl, rfl⟩
      exact Nat.add_le_add_left (Nat.le_add_right _ _) _
    · rcases ih hmem with ⟨hdirection, hstart, hstop, q, hq, hpiece⟩
      exact ⟨hdirection, by omega, by omega, q, List.mem_cons_of_mem p hq, hpiece⟩

section Forward

variable (c) (limits : ChunkLimits) (control : Control) (force : Bool) (m)

/-- A movement sends nothing, or its pieces from the position of its direction on. -/
theorem forward_cases :
    (c.forward limits control force m).1 = [] ∨
      (c.forward limits control force m).1 =
        c.chunks m (c.position m.direction) m.lengthHeader (m.pieces limits) := by
  by_cases hsends : control.sends force c = true
  · exact Or.inr (forward_of_sends control hsends)
  · exact Or.inl (forward_of_not_sends control hsends)

variable {c limits control force m}

theorem direction_of_mem_forward {x : DataChunk}
    (h : x ∈ (c.forward limits control force m).1) : x.direction = m.direction := by
  rcases forward_cases c m limits control force with hnone | hsome
  · rw [hnone] at h
    cases h
  · rw [hsome] at h
    exact (of_mem_chunks h).1

/-- A movement sends all of its chunks in its own direction. -/
theorem filter_direction_forward (d : Direction) :
    (c.forward limits control force m).1.filter (·.direction = d) =
      if m.direction = d then (c.forward limits control force m).1 else [] := by
  split
  · next hd =>
    rw [List.filter_eq_self]
    intro x hx
    simpa [← hd] using direction_of_mem_forward hx
  · next hd =>
    rw [List.filter_eq_nil_iff]
    intro x hx hxd
    have hxm := direction_of_mem_forward hx
    exact hd (hxm.symm.trans (of_decide_eq_true hxd))

end Forward

theorem byteCount_of_moving {config : Config} {i : Incident} {c' : Connection}
    (h : c.moving? config i = some (c', m)) (hmoved : i.isEmpty = false) : m.byteCount ≠ 0 := by
  rcases moving?_cases h with ⟨o, rfl, _, _, rfl⟩ | ⟨o, rfl, _, _, rfl⟩
  · simpa [Incident.isEmpty, Transfer.movement] using hmoved
  · simpa [Incident.isEmpty, FileTransfer.movement] using hmoved

end Connection

namespace Entry

variable (d : Direction)

/-- The chunks that entries have sent in a direction. -/
def sent (es : List Entry) : List DataChunk :=
  (es.flatMap fun e => Event.chunks e.events).filter (·.direction = d)

@[simp] theorem sent_append (es fs : List Entry) : sent d (es ++ fs) = sent d es ++ sent d fs := by
  simp [sent]

theorem sent_singleton (e : Entry) :
    sent d [e] = (Event.chunks e.events).filter (·.direction = d) := by
  simp [sent]

end Entry

/-! ## Whole incarnations -/

namespace Life

variable {config : Config} {control : Control} {past more : List Entry} {status : Option Connection}
variable {d : Direction}

end Life

namespace Tracker

variable {config : Config} {control : Control} {t : Tracker}

end Tracker

end FlowTrace
