import FlowTrace.Proofs.EventProtocol
import FlowTrace.Proofs.Forwarding
import FlowTrace.Proofs.LengthHeader
import FlowTrace.Proofs.Overrun

/-!
# Lone segment — a buffer, and the same bytes as a segment among empty ones

A call that scatters or gathers may have all of its bytes in one segment and none in the others. Two
searches lead to that segment: one for the bytes to classify, over the leading segments, and one for
the bytes to send, over those that are walked. If it stands within both bounds, both find what they
would find of the buffer.

The bytes that are classified are the same for every count, and they alone decide what becomes of
the connection. The pieces are the same if the count fits into one chunk and all of it was staged.
For a larger count they need not be: a buffer is cut into several pieces that stand for every byte,
a segment makes one piece that stands for what was staged.
-/

namespace FlowTrace

namespace Payload

/-- A buffer as a segment of its own, with empty segments before and after it. -/
def lone (before : Nat) (buffer : Bytes) (after : Nat) : Payload :=
  .segments (List.replicate before [] ++ buffer :: List.replicate after [])

/-- An empty segment has no share, and takes none from the others. -/
theorem shares_replicate_append (k count : Nat) (parts : List Bytes) :
    shares count (List.replicate k [] ++ parts) = List.replicate k [] ++ shares count parts := by
  induction k with
  | zero => rfl
  | succ k ih => simp [List.replicate_succ, shares, ih]

section Lone

variable {k count before : Nat} {buffer : Bytes}

/-- If the segment is among those that are looked at, it is all that is found. -/
theorem filled_lone (hbefore : before < k) (hcount : count ≠ 0) (hbuffer : buffer ≠ [])
    (after : Nat) :
    filled k count (List.replicate before [] ++ buffer :: List.replicate after []) =
      [buffer.take count] := by
  have hafter : shares (count - buffer.length) (List.replicate after []) =
      List.replicate after [] := by
    simpa [shares] using shares_replicate_append after (count - buffer.length) []
  have hkept : (buffer.take count).isEmpty = false := by
    simp [hcount, hbuffer]
  -- Past the empty segments before it, there is at least one more to look at.
  have hleft : k - before = k - before - 1 + 1 := by omega
  rw [filled, ← take_shares, shares_replicate_append, shares, hafter, List.take_append,
    List.length_replicate, hleft, List.take_succ_cons]
  simp [List.take_replicate, hkept]

variable {limits : ChunkLimits}

/-- The buffer is classified, whichever way it was staged. -/
theorem sample?_lone (hbefore : before < limits.inferenceSegments) (hcount : count ≠ 0)
    (hbuffer : buffer ≠ []) (after : Nat) :
    (flat buffer).sample? limits count = (lone before buffer after).sample? limits count := by
  simp only [sample?, lone, find?_map_take_eq_head?_filled,
    filled_lone hbefore hcount hbuffer after, List.head?_cons]

/-- What fits into one chunk and was staged makes one piece, whichever way it was staged. -/
theorem pieces_lone (hbefore : before < limits.maxSegments) (hchunks : limits.maxChunks ≠ 0)
    (hcount : count ≠ 0) (hbuffer : buffer ≠ []) (after : Nat)
    (hfits : count ≤ min buffer.length limits.maxChunkSize) :
    (flat buffer).pieces limits count = (lone before buffer after).pieces limits count := by
  have hstaged : min count buffer.length = count := by omega
  have hchunk : min count limits.maxChunkSize = count := by omega
  have hflat : (flat buffer).pieces limits count = [⟨count, buffer.take count⟩] := by
    -- The first piece takes all, whether or not there might be others.
    have hlast : ¬(limits.maxChunkSize < count ∧ limits.maxChunks - 1 ≠ 0) := by omega
    have hmore : limits.maxChunks = limits.maxChunks - 1 + 1 := by omega
    rw [pieces, hmore, Piece.ofFlat]
    simp [hlast, hcount, hchunk]
  have hlone : (lone before buffer after).pieces limits count = [⟨count, buffer.take count⟩] := by
    simp only [pieces, lone, Piece.ofSegments_eq_map]
    have hfilled := filled_lone hbefore hcount hbuffer after
    rw [filled] at hfilled
    simp [hfilled, Piece.ofShare, hstaged, List.take_take, Nat.min_comm limits.maxChunkSize, hchunk]
  rw [hflat, hlone]

end Lone

end Payload

/-! ## Besides data -/

/-- Reports are no data. -/
theorem Event.reports_besidesData (xs : List Event) : reports (besidesData xs) = reports xs := by
  rw [besidesData, reports, List.filterMap_filter]
  congr 1
  funext x
  cases x <;> rfl

/-- Besides its data, nothing is seen of a call but the bytes that are classified. -/
theorem Connection.besidesData_transfer_restaged (c : Connection) (config : Config)
    (control : Control) (force : Bool) {o : Transfer} {p : Payload}
    (h : o.payload.sample? config.chunkLimits o.byteCount =
      p.sample? config.chunkLimits o.byteCount) :
    (c.transfer config control force (o.restaged p)).besidesData =
      (c.transfer config control force o).besidesData := by
  refine besidesData_transfer_congr c rfl (sampled_restaged c config h) ?_
  intro header?
  -- The accounting is not shown what was staged.
  rw [besidesData_move, besidesData_move]
  rfl

theorem Tracker.Alike.refl (t : Tracker) : t.Alike t :=
  ⟨⟨rfl, rfl, rfl, rfl, rfl, rfl⟩, rfl, rfl, rfl⟩

/-- The step of a call, with something else staged for it. -/
def Transfer.staging (o : Transfer) (p : Payload) : Step :=
  .observe (.data (o.restaged p))

namespace Tracker

/-- Nor does a tracker see more, besides data. -/
theorem besidesData_respond_restaged (t : Tracker) {o : Transfer} {p : Payload}
    (h : o.payload.sample? t.config.chunkLimits o.byteCount =
      p.sample? t.config.chunkLimits o.byteCount) :
    (t.respond (.observe (.data (o.restaged p)))).besidesData =
      (t.respond (.observe (.data o))).besidesData := by
  apply Outcome.besidesData_counting
  by_cases hempty : o.byteCount = 0
  · have hempty' : (o.restaged p).byteCount = 0 := hempty
    simp only [transferred, if_pos hempty, if_pos hempty']
  · have hempty' : ¬(o.restaged p).byteCount = 0 := hempty
    simp only [transferred, if_neg hempty, if_neg hempty']
    apply (Alike.refl t).admitting
    intro force
    apply (Alike.refl t).reacting
    intro c
    exact c.besidesData_transfer_restaged t.config t.control force h

variable {config : Config} {control : Control} {t : Tracker}

/-- After any run, a call whose bytes are staged in one segment among empty ones leaves the same
registry as if they were in a buffer, with the same reports and the same counters besides those of
data, if the segment is among the leading ones that are searched and walked. If what it has moved
fits into one chunk and was staged, the whole answer is the same, and so is the tracker. -/
theorem loneSegment_as_buffer (h : make config control = .ok t) (steps : List Step) (o : Transfer)
    (hcount : o.byteCount ≠ 0) {buffer : Bytes} (hbuffer : buffer ≠ []) {before : Nat}
    (hbefore : before < min config.chunkLimits.inferenceSegments config.chunkLimits.maxSegments)
    (after : Nat) :
    ((t.run steps).next (o.staging (.lone before buffer after))).registry =
        ((t.run steps).next (o.staging (.flat buffer))).registry ∧
      Event.reports ((t.run steps).respond (o.staging (.lone before buffer after))).events =
        Event.reports ((t.run steps).respond (o.staging (.flat buffer))).events ∧
      ((t.run steps).respond (o.staging (.lone before buffer after))).besidesData =
        ((t.run steps).respond (o.staging (.flat buffer))).besidesData ∧
      (o.byteCount ≤ min buffer.length config.chunkLimits.maxChunkSize →
        (t.run steps).respond (o.staging (.lone before buffer after)) =
            (t.run steps).respond (o.staging (.flat buffer)) ∧
          (t.run steps).next (o.staging (.lone before buffer after)) =
            (t.run steps).next (o.staging (.flat buffer))) := by
  rcases make_eq_ok h with ⟨ht, hcheck, -⟩
  have hconfig : (t.run steps).config = config := by simp [ht]
  -- The same bytes are classified for every count, the same pieces are cut for some.
  have hsample : (Payload.flat buffer).sample? (t.run steps).config.chunkLimits o.byteCount =
      (Payload.lone before buffer after).sample? (t.run steps).config.chunkLimits o.byteCount := by
    rw [hconfig]
    exact Payload.sample?_lone (by omega) hcount hbuffer after
  have hbesides : ((t.run steps).respond (o.staging (.lone before buffer after))).besidesData =
      ((t.run steps).respond (o.staging (.flat buffer))).besidesData :=
    besidesData_respond_restaged (t.run steps) (o := o.restaged (.flat buffer)) hsample
  have hparts := hbesides
  simp only [Outcome.besidesData, Outcome.mk.injEq] at hparts
  refine ⟨hparts.1, ?_, hbesides, ?_⟩
  · rw [← Event.reports_besidesData, hparts.2.1, Event.reports_besidesData]
  · intro hfits
    have hchunks : config.chunkLimits.maxChunks ≠ 0 :=
      Config.bound_ne_zero hcheck .maxChunks (by simp [Config.bounds])
    have hpieces : (Payload.flat buffer).pieces (t.run steps).config.chunkLimits o.byteCount =
        (Payload.lone before buffer after).pieces (t.run steps).config.chunkLimits o.byteCount := by
      rw [hconfig]
      exact Payload.pieces_lone (by omega) hchunks hcount hbuffer after hfits
    have hrespond : (t.run steps).respond (o.staging (.lone before buffer after)) =
        (t.run steps).respond (o.staging (.flat buffer)) :=
      respond_restaged (t.run steps) (o := o.restaged (.flat buffer)) ⟨hsample, hpieces⟩
    exact ⟨hrespond, by rw [next, next, hrespond]⟩

end Tracker

namespace Session

/-- The message of 12 bytes, without its size. -/
def message : Bytes :=
  [0, 3, 0, 1, 0, 0, 0, 7, 0, 2, 0, 0]

/-- The size of the message is read, and the message is not. -/
def awaiting (key : ConnectionKey) : List Step :=
  [connect key, .observe (.data (sizing key .ingress))]

end Session

namespace Tracker

/-- A message whose size was read before stands in the last segment that is searched. It is sent
with its size in front, as it is if it is read into a buffer. -/
theorem loneSegment_as_buffer_message :
    make .standard .everything = .ok standard ∧ (Session.reading ⟨7, 3⟩).byteCount ≠ 0 ∧
      Session.message ≠ [] ∧
      2 < min ChunkLimits.standard.inferenceSegments ChunkLimits.standard.maxSegments ∧
      12 ≤ min Session.message.length ChunkLimits.standard.maxChunkSize ∧
      (standard.run (Session.awaiting ⟨7, 3⟩)).respond
          ((Session.reading ⟨7, 3⟩).staging (.lone 2 Session.message 1)) =
        (standard.run (Session.awaiting ⟨7, 3⟩)).respond
          (.observe (.data (Session.reading ⟨7, 3⟩))) ∧
      (Event.chunks ((standard.run (Session.awaiting ⟨7, 3⟩)).respond
          ((Session.reading ⟨7, 3⟩).staging (.lone 2 Session.message 1))).events).map
            (fun x => (x.lengthHeader, x.payload)) =
        [(some ⟨0, 0, 0, 12⟩, Session.message)] := by
  have hcount : (Session.reading ⟨7, 3⟩).byteCount ≠ 0 := by decide
  have hmessage : Session.message ≠ [] := by decide
  have hbefore :
      2 < min ChunkLimits.standard.inferenceSegments ChunkLimits.standard.maxSegments := by decide
  have hfits : 12 ≤ min Session.message.length ChunkLimits.standard.maxChunkSize := by decide
  have hchunks : (Event.chunks ((standard.run (Session.awaiting ⟨7, 3⟩)).respond
      ((Session.reading ⟨7, 3⟩).staging (.lone 2 Session.message 1))).events).map
        (fun x => (x.lengthHeader, x.payload)) = [(some ⟨0, 0, 0, 12⟩, Session.message)] := by
    decide +kernel
  rcases loneSegment_as_buffer make_standard (Session.awaiting ⟨7, 3⟩) (Session.reading ⟨7, 3⟩)
    hcount hmessage hbefore 1 with ⟨-, -, -, halike⟩
  exact ⟨make_standard, hcount, hmessage, hbefore, hfits, (halike hfits).1, hchunks⟩

end Tracker

end FlowTrace
