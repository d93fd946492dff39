import FlowTrace.Proofs.Gate
import FlowTrace.Proofs.LengthHeader

/-!
# Reattachment — a length header is handed on once

A header is put in front of a message by the call whose sample finds that the connection speaks
Kafka. The latch keeps it from happening again: once the protocol is known no sample marks the carry,
and a call without a sample, or a file, has no header to hand on whatever the carry holds. Within the
call it is the first chunk that gets the header.

So of all chunks of an incarnation one at most has a header, and `lengthHeader_once` says which.
-/

namespace FlowTrace

/-! ## One incident -/

namespace Connection

variable {c : Connection} {config : Config}

theorem sampled_of_sample {o : Transfer} {sample : Bytes}
    (h : o.payload.sample? config.chunkLimits o.byteCount = some sample) :
    c.sampled config o =
      { c with carry := c.carry.clearPrepend }.classify ⟨config.enabledProtocols⟩ o.direction
        sample := by
  simp only [sampled, h]

/-- A header is handed on by the sample that finds Kafka, and by no other. -/
theorem latches_of_lengthHeader {o : Transfer} {header : Header}
    (h : (c.sampled config o).carry.lengthHeader = some header) :
    c.protocol = .unknown ∧ (c.sampled config o).protocol = .kafka := by
  cases hsample : o.payload.sample? config.chunkLimits o.byteCount with
  | none =>
    rw [carry_sampled_of_none hsample] at h
    cases h
  | some sample =>
    rw [carry_sampled_of_sample hsample] at h
    have hmarked : (Classifier.infer ⟨config.enabledProtocols⟩ sample c.carry.clearPrepend
        c.protocol).2.prepend = true := (Option.ite_none_right_eq_some.1 h).1
    simp only [Classifier.infer, Bool.and_eq_true, beq_iff_eq] at hmarked
    rcases hmarked with ⟨⟨hverdict, _⟩, hunknown⟩
    refine ⟨hunknown, ?_⟩
    rw [sampled_of_sample hsample, protocol_classify]
    simpa [hunknown, Protocol.isKnown, Classifier.infer] using hverdict

/-- The first chunk stands where the movement begins and carries its header. The others have none. -/
theorem exists_chunks_cons (c : Connection) (m : Movement) (position : Nat)
    (header? : Option Header) {pieces : List Piece} (hpieces : pieces ≠ []) :
    ∃ x others, c.chunks m position header? pieces = x :: others ∧ x.position = position ∧
      x.lengthHeader = header? ∧ ∀ y ∈ others, y.lengthHeader = none := by
  cases pieces with
  | nil => exact absurd rfl hpieces
  | cons p ps =>
    refine ⟨_, _, rfl, rfl, rfl, ?_⟩
    intro y hy
    cases hfound : y.lengthHeader with
    | none => rfl
    | some found => cases (of_mem_chunks_lengthHeader hy hfound).1

/-- A chunk with a header comes first. -/
theorem chunks_of_lengthHeader {m : Movement} {position : Nat} {header? : Option Header}
    {pieces : List Piece} {x : DataChunk} (hx : x ∈ c.chunks m position header? pieces)
    (hheader : x.lengthHeader.isSome = true) :
    ∃ others, c.chunks m position header? pieces = x :: others ∧
      ∀ y ∈ others, y.lengthHeader = none := by
  have hpieces : pieces ≠ [] := by
    rintro rfl
    cases hx
  rcases exists_chunks_cons c m position header? hpieces with ⟨first, others, hchunks, _, _, hnone⟩
  rw [hchunks] at hx ⊢
  rcases List.mem_cons.1 hx with rfl | hmem
  · exact ⟨others, rfl, hnone⟩
  · simp [hnone x hmem] at hheader

end Connection

/-! ## One entry -/

namespace Encounter

variable {config : Config} {control : Control} {e : Encounter}

/-- A call finds that its connection, of which no protocol was known, speaks Kafka. -/
structure FindsKafka (config : Config) (control : Control) (e : Encounter) : Prop where
  transfer : ∃ o, e.incident = .data o
  before : e.connection.protocol = .unknown
  after : (e.reaction config control).connection.protocol = .kafka

/-- A chunk with a header is the first one of a call that finds Kafka, and shows what was found. -/
theorem findsKafka_of_lengthHeader {x : DataChunk}
    (hx : x ∈ Event.chunks (e.reaction config control).events)
    (hheader : x.lengthHeader.isSome = true) :
    e.FindsKafka config control ∧ x.protocol = .kafka ∧
      ∃ others, Event.chunks (e.reaction config control).events = x :: others ∧
        ∀ y ∈ others, y.lengthHeader = none := by
  rcases exists_moving_of_mem_chunks hx with ⟨c, m, hmoving⟩
  rcases shown_of_mem_chunks_reaction hmoving hx with ⟨hsent, -, hprotocol, -, -⟩
  rw [chunks_reaction hmoving, if_pos hsent] at hx ⊢
  rcases Option.isSome_iff_exists.1 hheader with ⟨header, hsome⟩
  have hmoved := (Connection.of_mem_chunks_lengthHeader hx hsome).1
  rcases Connection.moving?_cases hmoving with ⟨o, hincident, _, rfl, rfl⟩ | ⟨o, _, _, _, rfl⟩
  · rcases Connection.latches_of_lengthHeader hmoved with ⟨hunknown, hkafka⟩
    have hafter : (e.reaction config control).connection.protocol = .kafka := by
      rw [connection_reaction hmoving, Connection.protocol_account, hkafka]
    exact ⟨⟨⟨o, hincident⟩, hunknown, hafter⟩, hprotocol.trans hafter,
      Connection.chunks_of_lengthHeader hx hheader⟩
  · -- The bytes of a file come without a header.
    cases hmoved

end Encounter

/-! ## Whole incarnations -/

namespace Life

variable {config : Config} {control : Control} {past more : List Entry} {r : Entry}
variable {status : Option Connection}

/-- Once some entry has left the protocol known, every later entry meets it known. -/
theorem isKnown_of_recognised (h : Life config control (past ++ r :: more) status)
    (hrecognised : r.isRecognised config control = true) {e : Entry} (he : e ∈ more) :
    e.connection.protocol.isKnown = true := by
  rcases List.append_of_mem he with ⟨between, after, rfl⟩
  have hsplit : past ++ r :: (between ++ e :: after) = (past ++ r :: between) ++ e :: after := by
    simp
  rw [hsplit] at h
  rw [recognised_invariant.of_met h]
  simp [hrecognised]

/-- If some chunk of an entry has a header, no chunk of another entry has one. -/
theorem lengthHeader_eq_none (h : Life config control (past ++ r :: more) status) {x : DataChunk}
    (hx : x ∈ Event.chunks r.events) (hheader : x.lengthHeader.isSome = true) {e : Entry}
    (he : e ∈ past ++ more) {y : DataChunk} (hy : y ∈ Event.chunks e.events) :
    y.lengthHeader = none := by
  have hmem : e ∈ past ++ r :: more := by
    rcases List.mem_append.1 he with hpast | hmore
    · exact List.mem_append_left _ hpast
    · exact List.mem_append_right _ (List.mem_cons_of_mem _ hmore)
  rw [h.split.1.events_eq] at hx
  rw [h.events_eq hmem] at hy
  have hfinds := (Encounter.findsKafka_of_lengthHeader hx hheader).1
  cases hsome : y.lengthHeader with
  | none => rfl
  | some header =>
    have hsome : y.lengthHeader.isSome = true := by simp [hsome]
    have hagain := (Encounter.findsKafka_of_lengthHeader hy hsome).1
    -- The later of the two calls would have met a protocol that was known.
    rcases List.mem_append.1 he with hpast | hmore
    · rcases List.append_of_mem hpast with ⟨before, between, rfl⟩
      have hlater : Life config control (before ++ e :: (between ++ r :: more)) status := by
        simpa using h
      have hrecognised : e.isRecognised config control = true := by
        simp [Entry.isRecognised, hagain.after, Protocol.isKnown]
      have hknown := hlater.isKnown_of_recognised hrecognised (e := r) (by simp)
      simp [hfinds.before, Protocol.isKnown] at hknown
    · have hrecognised : r.isRecognised config control = true := by
        simp [Entry.isRecognised, hfinds.after, Protocol.isKnown]
      have hknown := h.isKnown_of_recognised hrecognised hmore
      simp [hagain.before, Protocol.isKnown] at hknown

/-- One chunk of an incarnation has a header, or none has. -/
theorem length_lengthHeader_le (h : Life config control past status) :
    ((past.flatMap fun e => Event.chunks e.events).filter (·.lengthHeader.isSome)).length ≤ 1 := by
  by_cases hany : ∃ e ∈ past, ∃ x ∈ Event.chunks e.events, x.lengthHeader.isSome = true
  · rcases hany with ⟨r, hr, x, hx, hheader⟩
    rcases List.append_of_mem hr with ⟨before, more, rfl⟩
    have hothers : ∀ es : List Entry, (∀ e ∈ es, e ∈ before ++ more) →
        (es.flatMap fun e => Event.chunks e.events).filter (·.lengthHeader.isSome) = [] := by
      intro es hes
      apply List.filter_eq_nil_iff.2
      intro y hy
      rcases List.mem_flatMap.1 hy with ⟨e, he, hy⟩
      simp [h.lengthHeader_eq_none hx hheader (hes e he) hy]
    have hx' := hx
    rw [h.split.1.events_eq] at hx'
    rcases (Encounter.findsKafka_of_lengthHeader hx' hheader).2.2 with ⟨others, hchunks, hnone⟩
    rw [← h.split.1.events_eq] at hchunks
    have hlater : others.filter (·.lengthHeader.isSome) = [] := by
      apply List.filter_eq_nil_iff.2
      intro y hy
      simp [hnone y hy]
    have hbefore := hothers before fun e he => List.mem_append_left _ he
    have hmore := hothers more fun e he => List.mem_append_right _ he
    simp [hbefore, hmore, hchunks, hlater, hheader]
  · have hnil : (past.flatMap fun e => Event.chunks e.events).filter
        (·.lengthHeader.isSome) = [] := by
      apply List.filter_eq_nil_iff.2
      intro y hy hsome
      rcases List.mem_flatMap.1 hy with ⟨e, he, hy⟩
      exact hany ⟨e, he, y, hy, hsome⟩
    simp [hnil]

end Life

namespace Tracker

variable {config : Config} {control : Control} {t : Tracker}

/-- In every run, each incarnation hands on one header at most. If it does, then in the first chunk of
the call that finds that it speaks Kafka, and neither the other chunks of that call nor those of any
other call have one. -/
theorem lengthHeader_once (h : make config control = .ok t) (steps : List Step) :
    (t.chronicle steps).entries.flatMap (fun e => Event.chunks e.events) =
        Event.chunks (t.events steps) ∧
      ∀ n, ((((t.chronicle steps).of n).flatMap fun e => Event.chunks e.events).filter
          (·.lengthHeader.isSome)).length ≤ 1 ∧
        ∀ past r more, (t.chronicle steps).of n = past ++ r :: more →
          ∀ x ∈ Event.chunks r.events, x.lengthHeader.isSome = true →
            r.FindsKafka config control ∧ x.protocol = .kafka ∧
            (∃ others, Event.chunks r.events = x :: others ∧
              ∀ y ∈ others, y.lengthHeader = none) ∧
            ∀ e ∈ past ++ more, ∀ y ∈ Event.chunks e.events, y.lengthHeader = none := by
  refine ⟨chunks_chronicle h steps, ?_⟩
  intro n
  by_cases hnil : (t.chronicle steps).of n = []
  · -- No incarnation of this number has begun.
    refine ⟨by simp [hnil], ?_⟩
    intro past r more hof
    simp [hnil] at hof
  · rcases exists_life h steps hnil with ⟨status, hlife⟩
    refine ⟨hlife.length_lengthHeader_le, ?_⟩
    intro past r more hof x hx hheader
    rw [hof] at hlife
    have hothers : ∀ e ∈ past ++ more, ∀ y ∈ Event.chunks e.events, y.lengthHeader = none :=
      fun e he y hy => hlife.lengthHeader_eq_none hx hheader he hy
    rw [hlife.split.1.events_eq] at hx ⊢
    rcases Encounter.findsKafka_of_lengthHeader hx hheader with ⟨hfinds, hprotocol, hfirst⟩
    exact ⟨hfinds, hprotocol, hfirst, hothers⟩

/-- The read message is the one with the header, and the read size before it is not reported. -/
theorem lengthHeader_once_frame :
    make .standard .everything = .ok standard ∧
      ∃ e r x, (standard.chronicle (Session.frame ⟨7, 3⟩ .ingress)).of 0 = [e] ++ r :: [] ∧
        x ∈ Event.chunks r.events ∧ x.lengthHeader = some ⟨0, 0, 0, 12⟩ ∧
        r.FindsKafka .standard .everything ∧ x.protocol = .kafka ∧
        ∀ y ∈ Event.chunks e.events, y.lengthHeader = none := by
  have hentries : ((standard.chronicle (Session.frame ⟨7, 3⟩ .ingress)).of 0).map
      (fun e => (Event.chunks e.events).map (·.lengthHeader)) =
      [[], [some ⟨0, 0, 0, 12⟩]] := by
    decide +kernel
  rcases List.map_eq_cons_iff.1 hentries with ⟨e, rest, hof, -, hrest⟩
  rcases List.map_eq_singleton_iff.1 hrest with ⟨r, rfl, hbody⟩
  rcases List.map_eq_singleton_iff.1 hbody with ⟨x, hchunks, hheader⟩
  have hx : x ∈ Event.chunks r.events := by simp [hchunks]
  have hsome : x.lengthHeader.isSome = true := by simp [hheader]
  have honce := ((lengthHeader_once make_standard (Session.frame ⟨7, 3⟩ .ingress)).2 0).2
  rcases honce [e] r [] hof x hx hsome with ⟨hfinds, hprotocol, -, hothers⟩
  exact ⟨make_standard, e, r, x, hof, hx, hheader, hfinds, hprotocol, hothers e (by simp)⟩

end Tracker

end FlowTrace
