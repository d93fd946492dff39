import FlowTrace.Proofs.Chronicle
import FlowTrace.Proofs.Partition

/-!
# Overrun — nothing is seen of the bytes past those that were moved

The buffer of a call may be larger than what the call moved, and what lies in the rest of it belongs
to nobody: it may be left over from another call. Three places look at a payload, and each of them
keeps to the bytes that were moved in its own way. The sample cuts every segment to the whole count,
the walk over the segments to what is left of it, and a flat buffer is cut piece by piece.

`Payload.AgreesOn` relates two payloads that differ past a count only. None of the three tells them
apart, `Payload.SeenAlike`, so neither does a step, and from the same tracker two runs whose payloads
agree go the same way: `overrun_unseen`.
-/

namespace FlowTrace

/-- A buffer is cut as if it ended where the count does. -/
theorem Piece.ofFlat_take (maxSize count remaining : Nat) (staged : Bytes) :
    ofFlat maxSize count remaining (staged.take remaining) =
      ofFlat maxSize count remaining staged := by
  induction count generalizing remaining staged with
  | zero => rfl
  | succ count ih =>
    simp only [ofFlat]
    generalize hsize : (if maxSize < remaining ∧ count ≠ 0 then maxSize else remaining) = size
    have hle : size ≤ remaining := by
      split at hsize <;> omega
    -- What is left of the buffer ends where the rest of the count does.
    have hhead : min (min size maxSize) remaining = min size maxSize := by omega
    rw [List.take_take, hhead, List.drop_take, ih]

/-! ## Payloads that agree -/

namespace Payload

/-- The payloads are the same as far as `count` bytes go. Buffers may go on differently. Segments
may do so as well, or be left out at the end, where nothing of them falls within the count. -/
inductive AgreesOn (count : Nat) : Payload → Payload → Prop
  | flat {buffer buffer' : Bytes} (h : buffer.take count = buffer'.take count) :
    AgreesOn count (.flat buffer) (.flat buffer')
  | segments {parts parts' : List Bytes} (k k' : Nat)
    (h : shares count parts ++ List.replicate k [] = shares count parts' ++ List.replicate k' []) :
    AgreesOn count (.segments parts) (.segments parts')

theorem take_shares (k count : Nat) (parts : List Bytes) :
    (shares count parts).take k = shares count (parts.take k) := by
  induction parts generalizing k count with
  | nil => simp [shares]
  | cons part parts ih =>
    cases k with
    | zero => rfl
    | succ k => simp [shares, ih]

/-- What is not empty among the first `k` shares does not depend on empty ones at the end. -/
theorem filter_take_append_replicate (shares : List Bytes) (k extra : Nat) :
    ((shares ++ List.replicate extra []).take k).filter (!·.isEmpty) =
      (shares.take k).filter (!·.isEmpty) := by
  simp [List.take_append, List.filter_append, List.take_replicate]

/-- Payloads that agree have the same bytes to offer, however many segments are looked at. -/
theorem filled_eq_of_append_replicate {count extra extra' : Nat} {parts parts' : List Bytes}
    (h : shares count parts ++ List.replicate extra [] =
      shares count parts' ++ List.replicate extra' []) (k : Nat) :
    filled k count parts = filled k count parts' := by
  calc
    filled k count parts
        = ((shares count parts ++ List.replicate extra []).take k).filter (!·.isEmpty) := by
      rw [filter_take_append_replicate, filled, take_shares]
    _ = ((shares count parts' ++ List.replicate extra' []).take k).filter (!·.isEmpty) := by
      rw [h]
    _ = filled k count parts' := by
      rw [filter_take_append_replicate, filled, take_shares]

/-! ## What is read of a payload -/

/-- The first segment that is not empty is found by its share as well: those before it are empty, so
nothing of the count is used up. -/
theorem find?_map_take_eq_head?_filled (k count : Nat) (parts : List Bytes) :
    ((parts.take k).map (·.take count)).find? (!·.isEmpty) = (filled k count parts).head? := by
  rw [filled, List.head?_filter]
  induction parts.take k with
  | nil => rfl
  | cons part parts ih =>
    simp only [List.map_cons, shares]
    by_cases hempty : part.take count = []
    · -- Both searches go on, and the count is the same as before.
      have hleft : count - part.length = count := by
        rcases List.take_eq_nil_iff.1 hempty with hzero | hnil
        · simp [hzero]
        · simp [hnil]
      simpa [hempty, hleft] using ih
    · have hfound : (part.take count).isEmpty = false := by
        simpa [List.isEmpty_eq_false_iff] using hempty
      simp only [List.find?_cons, hfound, Bool.not_false]

variable {count : Nat} {p p' : Payload}

/-- The classifier is shown the same bytes. -/
theorem AgreesOn.sample?_eq (h : AgreesOn count p p') (limits : ChunkLimits) :
    p.sample? limits count = p'.sample? limits count := by
  cases h with
  | flat h => exact congrArg some h
  | segments k k' h =>
    simp only [sample?, find?_map_take_eq_head?_filled, filled_eq_of_append_replicate h]

/-- The payloads are cut into the same pieces. -/
theorem AgreesOn.pieces_eq (h : AgreesOn count p p') (limits : ChunkLimits) :
    p.pieces limits count = p'.pieces limits count := by
  cases h with
  | @flat buffer buffer' h =>
    calc
      Piece.ofFlat limits.maxChunkSize limits.maxChunks count buffer
          = Piece.ofFlat limits.maxChunkSize limits.maxChunks count (buffer.take count) :=
        (Piece.ofFlat_take _ _ _ _).symm
      _ = Piece.ofFlat limits.maxChunkSize limits.maxChunks count buffer' := by
        rw [h, Piece.ofFlat_take]
  | segments k k' h =>
    simp only [pieces, Piece.ofSegments_eq_map]
    exact congrArg (List.map (Piece.ofShare limits.maxChunkSize))
      (filled_eq_of_append_replicate h limits.maxSegments)

/-- Of both payloads the same bytes are classified, and both are cut into the same pieces. -/
structure SeenAlike (limits : ChunkLimits) (count : Nat) (p p' : Payload) : Prop where
  sample?_eq : p.sample? limits count = p'.sample? limits count
  pieces_eq : p.pieces limits count = p'.pieces limits count

theorem AgreesOn.seenAlike (h : AgreesOn count p p') (limits : ChunkLimits) :
    SeenAlike limits count p p' :=
  ⟨h.sample?_eq limits, h.pieces_eq limits⟩

end Payload

/-! ## Calls -/

/-- The call, as it looks with something else staged for it. -/
def Transfer.restaged (o : Transfer) (p : Payload) : Transfer :=
  { o with payload := p }

namespace Connection

variable (c : Connection) (config : Config) (control : Control) (force : Bool)

/-- Chunks are made of pieces, whatever these were cut from. -/
theorem chunks_content (m : Movement) (content : Content) (position : Nat)
    (header? : Option Header) (pieces : List Piece) :
    c.chunks { m with content } position header? pieces = c.chunks m position header? pieces := by
  induction pieces generalizing position header? with
  | nil => rfl
  | cons p ps ih => simp only [chunks, ih]

/-- Of its content, a movement shows the pieces only. -/
theorem move_content (m : Movement) (content : Content)
    (hpieces : Movement.pieces { m with content } config.chunkLimits =
      m.pieces config.chunkLimits) :
    c.move config control force { m with content } = c.move config control force m := by
  have hforward : c.forward config.chunkLimits control force { m with content } =
      c.forward config.chunkLimits control force m := by
    simp only [forward, hpieces, chunks_content]
  have haccount : c.account config.statsThreshold { m with content } =
      c.account config.statsThreshold m := rfl
  simp only [move, hforward, haccount]

theorem sampled_restaged {o : Transfer} {p : Payload}
    (h : o.payload.sample? config.chunkLimits o.byteCount =
      p.sample? config.chunkLimits o.byteCount) :
    c.sampled config (o.restaged p) = c.sampled config o := by
  simp only [sampled, Transfer.restaged, h]

/-- A connection takes either call alike. -/
theorem transfer_restaged {o : Transfer} {p : Payload}
    (h : Payload.SeenAlike config.chunkLimits o.byteCount o.payload p) :
    c.transfer config control force (o.restaged p) = c.transfer config control force o := by
  have hsampled := sampled_restaged c config h.sample?_eq
  have hmove := move_content (c.sampled config o) config control force
    (o.movement (c.sampled config o).carry.lengthHeader) (.staged p) h.pieces_eq.symm
  simp only [Transfer.movement] at hmove
  simp only [transfer, hsampled]
  simp only [Transfer.restaged, hmove]

end Connection

/-! ## Steps and runs -/

/-- The second step is the first one, with something else staged past the bytes that were moved. -/
inductive Step.Restages : Step → Step → Prop
  | same (s : Step) : Restages s s
  | data {o : Transfer} {p : Payload} (h : Payload.AgreesOn o.byteCount o.payload p) :
    Restages (.observe (.data o)) (.observe (.data (o.restaged p)))

namespace Tracker

/-- Payloads that are seen alike get the same answer. -/
theorem respond_restaged (t : Tracker) {o : Transfer} {p : Payload}
    (h : Payload.SeenAlike t.config.chunkLimits o.byteCount o.payload p) :
    t.respond (.observe (.data (o.restaged p))) = t.respond (.observe (.data o)) := by
  -- Whether it is admitted is not a matter of the payload, and its connection takes it alike.
  have htransfer : ∀ force,
      (fun c : Connection => c.transfer t.config t.control force (o.restaged p)) =
        fun c => c.transfer t.config t.control force o := by
    intro force
    funext c
    exact c.transfer_restaged t.config t.control force h
  simp only [respond, observed, transferred]
  simp only [Transfer.restaged] at htransfer ⊢
  simp only [htransfer]

theorem respond_restages (t : Tracker) {s s' : Step} (h : s.Restages s') :
    t.respond s' = t.respond s := by
  cases h with
  | same => rfl
  | data hagrees => exact respond_restaged t (hagrees.seenAlike t.config.chunkLimits)

theorem next_restages (t : Tracker) {s s' : Step} (h : s.Restages s') : t.next s' = t.next s := by
  rw [next, next, respond_restages t h]

theorem run_restages (t : Tracker) {steps steps' : List Step}
    (h : List.Forall₂ Step.Restages steps steps') :
    t.outcomes steps' = t.outcomes steps ∧ t.run steps' = t.run steps := by
  induction h generalizing t with
  | nil => exact ⟨rfl, rfl⟩
  | @cons s s' steps steps' hstep _ ih =>
    have hrest := ih (t.next s)
    have hnext := next_restages t hstep
    refine ⟨?_, ?_⟩
    · simp only [outcomes, respond_restages t hstep, hnext, hrest.1]
    · simpa only [run, List.foldl_cons, hnext] using hrest.2

/-- Whatever is staged past the bytes that a call has moved, a tracker gives the same answer and is
left the same, and so it goes for the calls of a run. -/
theorem overrun_unseen (t : Tracker) :
    (∀ (o : Transfer) (p : Payload), Payload.AgreesOn o.byteCount o.payload p →
      t.respond (.observe (.data (o.restaged p))) = t.respond (.observe (.data o)) ∧
      t.next (.observe (.data (o.restaged p))) = t.next (.observe (.data o))) ∧
    ∀ steps steps', List.Forall₂ Step.Restages steps steps' →
      t.outcomes steps' = t.outcomes steps ∧ t.run steps' = t.run steps := by
  refine ⟨?_, ?_⟩
  · intro o p hagrees
    have hrestages : Step.Restages (.observe (.data o)) (.observe (.data (o.restaged p))) :=
      .data hagrees
    exact ⟨respond_restages t hrestages, next_restages t hrestages⟩
  · intro steps steps' h
    exact run_restages t h

end Tracker

namespace Session

/-- The buffers of the request are larger than the request. -/
def overrunning (key : ConnectionKey) : Transfer :=
  { requesting key with payload := .segments [[], requestLine ++ [0xde, 0xad], [0xbe, 0xef]] }

/-- The request, without what lies around it. -/
def trimmed : Payload :=
  .segments [[], requestLine]

end Session

namespace Tracker

/-- The request is forwarded in either run, and nothing else is. -/
theorem overrun_unseen_trimmed :
    Payload.AgreesOn 18 (Session.overrunning ⟨7, 3⟩).payload Session.trimmed ∧
      standard.outcomes [Session.connect ⟨7, 3⟩,
          .observe (.data ((Session.overrunning ⟨7, 3⟩).restaged Session.trimmed))] =
        standard.outcomes [Session.connect ⟨7, 3⟩, .observe (.data (Session.overrunning ⟨7, 3⟩))] ∧
      (Event.chunks (standard.events
        [Session.connect ⟨7, 3⟩, .observe (.data (Session.overrunning ⟨7, 3⟩))])).map (·.payload) =
          [Session.requestLine] := by
  have hagrees : Payload.AgreesOn 18 (Session.overrunning ⟨7, 3⟩).payload Session.trimmed :=
    .segments 0 1 (by decide)
  have hsteps : List.Forall₂ Step.Restages
      [Session.connect ⟨7, 3⟩, .observe (.data (Session.overrunning ⟨7, 3⟩))]
      [Session.connect ⟨7, 3⟩,
        .observe (.data ((Session.overrunning ⟨7, 3⟩).restaged Session.trimmed))] :=
    .cons (.same _) (.cons (.data hagrees) .nil)
  have hchunks : (Event.chunks (standard.events
      [Session.connect ⟨7, 3⟩, .observe (.data (Session.overrunning ⟨7, 3⟩))])).map (·.payload) =
        [Session.requestLine] := by decide +kernel
  exact ⟨hagrees, ((overrun_unseen standard).2 _ _ hsteps).1, hchunks⟩

end Tracker

end FlowTrace
