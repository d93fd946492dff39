import FlowTrace.Proofs.Position
import FlowTrace.Proofs.Sampling

/-!
# Length header — where a header that is handed on comes from

The header in front of the first chunk of a Kafka message is the sample before, which was four bytes
long, whichever way it went: a connection has one carry, while its two directions have a position
each. Nor does the carry notice bytes without a sample, or those of a call beyond its sample.

So the header is the bytes just before the chunk if it went the same way, if its call moved nothing
else, and if nothing without a sample followed it in that direction. Otherwise its place is another
one, and only a copy of it could stand before the chunk.
-/

namespace FlowTrace

/-- A header that could be read takes eight bytes. -/
theorem Kafka.RequestHeader.le_length {b : Bytes} {header : RequestHeader}
    (h : read? b = some header) : 8 ≤ b.length := by
  -- The last of the three fields takes the bytes from four to eight.
  cases hlastField : b.int32? 4 with
  | none => simp [read?, hlastField] at h
  | some correlationId =>
    have hfield : (b.field? 4 4).isSome = true := by
      cases hfound : b.field? 4 4 with
      | some field => rfl
      | none => simp [Bytes.int32?, Bytes.word32?, hfound] at hlastField
    rcases Option.isSome_iff_exists.1 hfield with ⟨field, hfound⟩
    rcases Bytes.field?_eq_some_iff.1 hfound with ⟨htake, hlength⟩
    rw [← htake, List.length_take, List.length_drop] at hlength
    omega

/-- A message that is recognised by the carry follows a sample of four bytes, and is longer. -/
theorem Kafka.of_usedCarry {b : Bytes} {carry : Carry} (h : (classify b carry).usedCarry = true) :
    carry.lastLength = 4 ∧ 8 ≤ b.length := by
  unfold classify at h
  split at h
  · next hmessage =>
    have hannounces : carry.announcesBE b.length = true := h
    have hbody : body? b carry = some b := by
      simp [body?, hannounces]
    have hlast : carry.lastLength = 4 := by
      simp only [Carry.announcesBE, Bool.and_eq_true, beq_iff_eq] at hannounces
      exact hannounces.1
    refine ⟨hlast, ?_⟩
    rw [hbody] at hmessage
    cases hread : RequestHeader.read? b with
    | none => simp [hread] at hmessage
    | some header => exact RequestHeader.le_length hread
  · cases h

/-! ## The chunk of a header -/

namespace Connection

variable {c : Connection} {config : Config}

/-- A header that is handed on is the one that the carry held before. -/
theorem carry_of_lengthHeader {o : Transfer} {header : Header}
    (h : (c.sampled config o).carry.lengthHeader = some header) :
    c.carry.lastLength = 4 ∧ c.carry.header = header := by
  cases hsample : o.payload.sample? config.chunkLimits o.byteCount with
  | none =>
    rw [carry_sampled_of_none hsample] at h
    cases h
  | some sample =>
    rw [carry_sampled_of_sample hsample] at h
    simp only [Carry.lengthHeader, Classifier.infer, Option.ite_none_right_eq_some,
      Bool.and_eq_true, Option.some.injEq] at h
    rcases h with ⟨⟨⟨_, hused⟩, _⟩, hheader⟩
    rcases Kafka.of_usedCarry hused with ⟨hlast, hlong⟩
    refine ⟨hlast, ?_⟩
    -- The message is too long to be remembered as a header itself.
    have hkept := c.carry.clearPrepend.header_record (b := sample) (by omega)
    exact hkept.symm.trans hheader

/-- Only the first chunk of a movement carries a header. -/
theorem of_mem_chunks_lengthHeader {m : Movement} {position : Nat} {header? : Option Header}
    {pieces : List Piece} {x : DataChunk} (hx : x ∈ c.chunks m position header? pieces)
    {header : Header} (hheader : x.lengthHeader = some header) :
    header? = some header ∧ x.position = position := by
  induction pieces generalizing position header? with
  | nil => cases hx
  | cons p ps ih =>
    rcases List.mem_cons.1 hx with rfl | hmem
    · exact ⟨hheader, rfl⟩
    · cases (ih hmem).1

/-- A chunk with a header stands at the position of its direction and has the carry's header. -/
theorem chunk_of_lengthHeader {control : Control} {i : Incident} {x : DataChunk}
    (hx : x ∈ Event.chunks (c.undergo config control i).events) {header : Header}
    (hheader : x.lengthHeader = some header) :
    x.position = c.position x.direction ∧ c.carry.lastLength = 4 ∧ c.carry.header = header := by
  cases hmoving : c.moving? config i with
  | none =>
    rw [chunks_of_not_moving control hmoving] at hx
    cases hx
  | some p =>
    rcases p with ⟨c', m⟩
    rw [chunks_of_moving control hmoving] at hx
    have hdirection := direction_of_mem_forward hx
    -- The position is that before the bytes of the call are added.
    have hposition : c'.position x.direction = c.position x.direction :=
      (moving?_frame hmoving).2.2.2 x.direction
    rcases forward_cases c' m config.chunkLimits control (control.forces c.id.key.pid) with
      hnone | hsome
    · rw [hnone] at hx
      cases hx
    · rw [hsome] at hx
      rcases of_mem_chunks_lengthHeader hx hheader with ⟨hmoved, hstart⟩
      rw [← hdirection, hposition] at hstart
      refine ⟨hstart, ?_⟩
      rcases moving?_cases hmoving with ⟨o, _, _, _, rfl⟩ | ⟨o, _, _, _, rfl⟩
      · exact carry_of_lengthHeader hmoved
      · cases hmoved

end Connection

/-! ## What stands before a chunk -/

/-- A call that was taken had staged these bytes at this place of a direction. -/
def Entry.Staged (d : Direction) (past : List Entry) (place : Nat) (b : Bytes) : Prop :=
  ∃ before e between o, past = before ++ e :: between ∧ e.incident = .data o ∧
    e.connection.takes o = true ∧ o.direction = d ∧ Entry.moved d before ≤ place ∧
    b <+: (o.payload.bytes.take o.byteCount).drop (place - Entry.moved d before)

/-- The four bytes before a chunk, in its own direction, are this header. -/
def DataChunk.Follows (x : DataChunk) (header : Header) (past : List Entry) : Prop :=
  4 ≤ x.position ∧ Entry.Staged x.direction past (x.position - 4) header.toBytes

/-- A call has moved four bytes alone in the direction of a chunk, and nothing moved there since. -/
def DataChunk.Adjoins (x : DataChunk) (o : Transfer) (between : List Entry) : Prop :=
  o.direction = x.direction ∧ o.byteCount = 4 ∧ Entry.moved o.direction between = 0

/-- A header is what the carry remembers after some entries: one of them has it as its sample, and
none after that has a sample. -/
structure RememberedFrom (config : Config) (past : List Entry) (header : Header)
    (before : List Entry) (e : Entry) (between : List Entry) (o : Transfer) : Prop where
  past_eq : past = before ++ e :: between
  incident_eq : e.incident = .data o
  takes : e.connection.takes o = true
  sample_eq : o.payload.sample? config.chunkLimits o.byteCount = some header.toBytes
  quiet : ∀ e' ∈ between, e'.sample? config = none

namespace RememberedFrom

variable {config : Config} {past before between : List Entry} {header : Header} {e : Entry}
variable {o : Transfer}

/-- The call has moved the header at least. -/
theorem four_le (h : RememberedFrom config past header before e between o) : 4 ≤ o.byteCount := by
  have hlength := (Payload.isPrefix_of_sample? h.sample_eq).length_le
  have hfour : header.toBytes.length = 4 := rfl
  rw [List.length_take] at hlength
  omega

theorem moved_eq (h : RememberedFrom config past header before e between o) :
    Entry.moved o.direction past =
      Entry.moved o.direction before + o.byteCount + Entry.moved o.direction between := by
  have hadds : e.adds o.direction = o.byteCount := by
    simp [Entry.adds, Connection.adds, h.incident_eq, h.takes]
  rw [h.past_eq, Entry.moved_append, Entry.moved, hadds, Nat.add_assoc]

/-- The header ends where the next byte of its direction stands, if nothing moved there but the
header. -/
theorem adjacent_iff (h : RememberedFrom config past header before e between o) :
    Entry.moved o.direction before + 4 = Entry.moved o.direction past ↔
      o.byteCount = 4 ∧ Entry.moved o.direction between = 0 := by
  have hmoved := h.moved_eq
  have hfour := h.four_le
  omega

theorem staged (h : RememberedFrom config past header before e between o) :
    Entry.Staged o.direction past (Entry.moved o.direction before) header.toBytes := by
  refine ⟨before, e, between, o, h.past_eq, h.incident_eq, h.takes, rfl, Nat.le_refl _, ?_⟩
  rw [Nat.sub_self, List.drop_zero]
  exact Payload.isPrefix_of_sample? h.sample_eq

end RememberedFrom

/-! ## Whole incarnations -/

/-- A header that is handed on was remembered from an earlier entry of the incarnation. -/
theorem Life.exists_rememberedFrom {config : Config} {control : Control} {past more : List Entry}
    {r : Entry} {status : Option Connection} (h : Life config control (past ++ r :: more) status)
    {x : DataChunk} (hx : x ∈ Event.chunks r.events) {header : Header}
    (hheader : x.lengthHeader = some header) :
    ∃ before e between o, RememberedFrom config past header before e between o := by
  rw [h.split.1.events_eq] at hx
  rcases Connection.chunk_of_lengthHeader hx hheader with ⟨_, hlast, hcarry⟩
  rcases carry_invariant.of_met h hlast with ⟨before, e, between, hpast, hsample, hquiet⟩
  rw [hcarry] at hsample
  rcases Connection.exists_of_sample? hsample with ⟨o, hincident, htakes, hbytes⟩
  exact ⟨before, e, between, o, hpast, hincident, htakes, hbytes, hquiet⟩

namespace Tracker

variable {config : Config} {control : Control} {t : Tracker}

/-- In every run, a header that is handed on was the last sample of its incarnation. It stood just
before the chunk exactly if the chunk adjoins its call. Then it is what the chunk follows, and only
then, unless a copy of it was staged elsewhere. -/
theorem lengthHeader_exactly (h : make config control = .ok t) (steps : List Step) {n : Nat}
    {past more : List Entry} {r : Entry} (hof : (t.chronicle steps).of n = past ++ r :: more)
    {x : DataChunk} (hx : x ∈ Event.chunks r.events) {header : Header}
    (hheader : x.lengthHeader = some header) (hword : Entry.moved x.direction past ≤ maxWord) :
    ∃ before e between o, RememberedFrom config past header before e between o ∧
      (o.direction = x.direction ∧ Entry.moved o.direction before + 4 = x.position ↔
        x.Adjoins o between) ∧
      (x.Adjoins o between → x.Follows header past) ∧
      ((∀ d place, Entry.Staged d past place header.toBytes →
          d = o.direction ∧ place = Entry.moved o.direction before) →
        x.Follows header past → x.Adjoins o between) := by
  have hne : (t.chronicle steps).of n ≠ [] := by simp [hof]
  rcases (valid_chronicle h steps).life n hne with ⟨status, hlife⟩
  have hconfig : (t.chronicle steps).tracker.config = config := by
    simp [(make_eq_ok h).1]
  rw [hof, hconfig] at hlife
  have hposition : x.position = Entry.moved x.direction past := by
    have hx' := hx
    rw [hlife.split.1.events_eq] at hx'
    have hstart := (Connection.chunk_of_lengthHeader hx' hheader).1
    have hmoved := (Life.position_invariant x.direction).of_met hlife
    exact hstart.trans (hmoved.trans (saturate_of_le hword))
  rcases hlife.exists_rememberedFrom hx hheader with ⟨before, e, between, o, horigin⟩
  -- The chunk stands at the end of what its direction has moved.
  have hplace : o.direction = x.direction ∧ Entry.moved o.direction before + 4 = x.position ↔
      x.Adjoins o between := by
    constructor
    · rintro ⟨hdirection, hend⟩
      rw [hposition, ← hdirection] at hend
      exact ⟨hdirection, horigin.adjacent_iff.1 hend⟩
    · rintro ⟨hdirection, halone⟩
      refine ⟨hdirection, ?_⟩
      rw [hposition, ← hdirection]
      exact horigin.adjacent_iff.2 halone
  refine ⟨before, e, between, o, horigin, hplace, ?_, ?_⟩
  · intro hadjoins
    rcases hplace.2 hadjoins with ⟨hdirection, hend⟩
    have hbefore : x.position - 4 = Entry.moved o.direction before := by omega
    have hstaged := horigin.staged
    rw [← hbefore, hdirection] at hstaged
    exact ⟨by omega, hstaged⟩
  · rintro hunique ⟨hfour, hstaged⟩
    -- The bytes before the chunk can only be those that were remembered.
    rcases hunique x.direction (x.position - 4) hstaged with ⟨hdirection, hbefore⟩
    exact hplace.1 ⟨hdirection.symm, by omega⟩

end Tracker

/-! ## A message in two calls -/

namespace Session

variable (key : ConnectionKey)

/-- The size of a Kafka message of 12 bytes, as a call of its own. -/
def sizing (d : Direction) : Transfer where
  key := key
  startTicks := 1
  direction := d
  payload := .flat [0, 0, 0, 12]
  byteCount := 4
  operation := .unknown
  ssl := false
  timestamp := ⟨100⟩

/-- The message is read, without its size. -/
def reading : Transfer where
  key := key
  startTicks := 1
  direction := .ingress
  payload := .flat [0, 3, 0, 1, 0, 0, 0, 7, 0, 2, 0, 0]
  byteCount := 12
  operation := .read
  ssl := false
  timestamp := ⟨200⟩

/-- A size that goes one way, and a message that is read. -/
def frame (d : Direction) : List Step :=
  [.observe (.data (sizing key d)), .observe (.data (reading key))]

end Session

namespace Tracker

/-- A size that is read is put in front of the message it announces. -/
theorem lengthHeader_exactly_frame :
    make .standard .everything = .ok standard ∧
      ∃ e r x, (standard.chronicle (Session.frame ⟨7, 3⟩ .ingress)).of 0 = [e] ++ [r] ∧
        x ∈ Event.chunks r.events ∧ x.lengthHeader = some ⟨0, 0, 0, 12⟩ ∧
        Entry.moved x.direction [e] ≤ maxWord ∧ x.Follows ⟨0, 0, 0, 12⟩ [e] := by
  have hentries : ((standard.chronicle (Session.frame ⟨7, 3⟩ .ingress)).of 0).map
      (fun e => (e.incident, (Event.chunks e.events).map
        fun x => (x.direction, x.position, x.lengthHeader))) =
      [(.data (Session.sizing ⟨7, 3⟩ .ingress), []),
        (.data (Session.reading ⟨7, 3⟩), [(.ingress, 4, some ⟨0, 0, 0, 12⟩)])] := by
    decide +kernel
  rcases List.map_eq_cons_iff.1 hentries with ⟨e, rest, hof, hsize, hrest⟩
  rcases List.map_eq_singleton_iff.1 hrest with ⟨r, rfl, hbody⟩
  rcases List.map_eq_singleton_iff.1 (Prod.mk.inj hbody).2 with ⟨x, hchunks, hchunk⟩
  simp only [Prod.mk.injEq] at hsize hchunk
  rcases hchunk with ⟨hdirection, hposition, hheader⟩
  have hx : x ∈ Event.chunks r.events := by simp [hchunks]
  have hadds : ∀ d, e.adds d ≤ 4 := by
    intro d
    simp only [Entry.adds, hsize.1, Connection.adds]
    split <;> simp [Session.sizing]
  have hword : Entry.moved x.direction [e] ≤ maxWord := by
    have hfour := hadds x.direction
    simp only [Entry.moved, Nat.add_zero]
    exact Nat.le_trans hfour (by decide)
  have hsplit : (standard.chronicle (Session.frame ⟨7, 3⟩ .ingress)).of 0 = [e] ++ r :: [] := hof
  rcases lengthHeader_exactly make_standard _ hsplit hx hheader hword with
    ⟨before, origin, between, o, horigin, _, hfollows, _⟩
  refine ⟨make_standard, e, r, x, hof, hx, hheader, hword, hfollows ?_⟩
  -- There is no entry before the body but that of the size.
  rcases List.append_eq_singleton_iff.1 horigin.past_eq.symm with ⟨_, hcons⟩ | ⟨_, hcons⟩
  · rcases List.cons.inj hcons with ⟨rfl, rfl⟩
    have hsame := horigin.incident_eq.symm.trans hsize.1
    cases hsame
    exact ⟨hdirection.symm, rfl, rfl⟩
  · cases hcons

/-- The size of a message that was written is put in front of a message that is read, although the
message is the first that was read at all. -/
theorem header_of_other_direction :
    make .standard .everything = .ok standard ∧
      ∃ x ∈ Event.chunks (standard.events (Session.frame ⟨7, 3⟩ .egress)),
        x.lengthHeader = some ⟨0, 0, 0, 12⟩ ∧ x.direction = .ingress ∧ ¬4 ≤ x.position := by
  refine ⟨make_standard, ?_⟩
  decide +kernel

end Tracker

end FlowTrace
