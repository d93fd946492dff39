import FlowTrace.Proofs.Ledger
import FlowTrace.Proofs.Position

/-!
# Gate — what is forwarded is what the control lets through

The gate decides in the middle of a step, after the sample of a call was classified and before its
bytes are accounted. It asks four questions in turn, and the answer to one may make the others void.
`Control.LetsThrough` says what it comes to, of what the connection shows after the step: accounting
changes nothing that the gate has looked at.

* Whatever is forwarded was let through, and shows the connection as it stands after the step,
  `letsThrough_of_mem_chunks`.
* Of the calls that are accounted, those that are not let through are held back and counted once, and
  those that are let through are not, `connection?_of_takes`. A segmented call may be let through
  and yield nothing, if the segments that are walked are empty. All others yield a chunk.
-/

namespace FlowTrace

/-! ## The control -/

namespace Control

variable (control : Control)

/-- What has to be so for the data of a connection to be forwarded: its process is not the monitoring
one, no order covers its generation, and its process is the target, or else its protocol is known and
traced for its role. -/
def LetsThrough (v : Connection.Snapshot) : Prop :=
  control.selfPid ≠ some v.id.key.pid ∧
    (∀ n ∈ v.disabledUpTo, n < v.id.generation) ∧
    (control.target = .pid v.id.key.pid ∨
      v.protocol.isKnown = true ∧ (control.masks v.protocol).bits &&& v.role.bits ≠ 0)

instance (v : Connection.Snapshot) : Decidable (control.LetsThrough v) :=
  -- Only the order that is there is looked at, not every generation.
  have : Decidable (∀ n ∈ v.disabledUpTo, n < v.id.generation) :=
    Option.decidableForallMem v.disabledUpTo
  inferInstanceAs (Decidable (_ ∧ _ ∧ _))

variable {control}

/-- A process is forced exactly if it is the target. -/
theorem forces_iff {pid : UInt32} : control.forces pid = true ↔ control.target = .pid pid := by
  cases htarget : control.target with
  | unspecified | all => simp [forces, htarget, Target.force?]
  | pid p => by_cases hp : p = pid <;> simp [forces, htarget, Target.force?, hp]

theorem sends_iff {c : Connection} :
    control.sends (control.forces c.id.key.pid) c = true ↔ control.LetsThrough c.snapshot := by
  have horder : c.isDisabled = false ↔ ∀ n ∈ c.disabledUpTo, n < c.id.generation := by
    cases hup : c.disabledUpTo <;> simp [Connection.isDisabled, hup]
  have hmask : (control.masks c.protocol).allows c.role = true ↔
      (control.masks c.protocol).bits &&& c.role.bits ≠ 0 := by
    simp [TraceMask.allows]
  simp only [sends, LetsThrough, Connection.snapshot, Bool.and_eq_true, Bool.or_eq_true,
    bne_iff_ne, Bool.not_eq_true', horder, forces_iff, hmask, and_assoc]

end Control

/-! ## One incident -/

namespace Incident

/-- A call whose bytes are cut without a gap, be it of one buffer or of a file. -/
def isWhole : Incident → Bool
  | data o =>
    match o.payload with
    | .flat _ => true
    | .segments _ => false
  | sendfile _ => true
  | opened _ | tlsDetected | disabled _ | closed _ => false

end Incident

namespace Connection

variable {c c' : Connection} {config : Config} {control : Control} {i : Incident} {m : Movement}

/-- The pieces of a whole call stand for all its bytes. -/
theorem totalSize_of_isWhole (hmoving : c.moving? config i = some (c', m))
    (hcheck : config.check = .ok ()) (hwhole : i.isWhole = true) :
    Piece.totalSize (m.pieces config.chunkLimits) = m.byteCount := by
  have hsize : config.chunkLimits.maxChunkSize ≠ 0 :=
    Config.bound_ne_zero hcheck .maxChunkSize (by simp [Config.bounds])
  have hcount : config.chunkLimits.maxChunks ≠ 0 :=
    Config.bound_ne_zero hcheck .maxChunks (by simp [Config.bounds])
  rcases moving?_cases hmoving with ⟨o, rfl, _, _, rfl⟩ | ⟨o, rfl, _, _, rfl⟩
  · cases hpayload : o.payload with
    | flat buffer =>
      simpa [Movement.pieces, Transfer.movement, hpayload, Payload.pieces] using
        Piece.totalSize_ofFlat hsize hcount o.byteCount buffer
    | segments parts => simp [Incident.isWhole, hpayload] at hwhole
  · simp [Movement.pieces, FileTransfer.movement, Piece.unstaged, Piece.totalSize]

/-- An accounted incident counts what its movement counts, and a latch besides. -/
theorem tally_of_moving (control : Control) (h : c.moving? config i = some (c', m)) :
    ∃ latched, (c.undergo config control i).tally =
      (c'.move config control (control.forces c.id.key.pid) m).tally +
        { protocolsLatched := latched } := by
  rcases moving?_cases h with ⟨o, rfl, htakes, rfl, rfl⟩ | ⟨o, rfl, htraceable, rfl, rfl⟩
  · rcases (Bool.and_eq_true _ _).mp htakes with ⟨htraceable, hssl⟩
    have hsame : (c.ssl != o.ssl) = false := by simpa using hssl
    simp only [undergo, transfer, htraceable, hsame, Bool.not_true, Bool.false_eq_true, if_false]
    exact ⟨_, rfl⟩
  · simp only [undergo, transferFile, htraceable, Bool.not_true, Bool.false_eq_true, if_false]
    exact ⟨0, (Counters.add_zero _).symm⟩

/-- Data that is not sent is counted as held back. -/
theorem dataFiltered_of_moving (control : Control) (h : c.moving? config i = some (c', m)) :
    (c.undergo config control i).tally.dataFiltered =
      if control.sends (control.forces c.id.key.pid) c' then 0 else 1 := by
  rcases tally_of_moving control h with ⟨latched, htally⟩
  have hsum : (c.undergo config control i).tally.dataFiltered =
      (c'.move config control (control.forces c.id.key.pid) m).tally.dataFiltered + 0 :=
    congrArg Counters.dataFiltered htally
  rw [hsum]
  simp only [move, forward]
  split <;> rfl

end Connection

namespace Encounter

variable {config : Config} {control : Control} {e : Encounter}

/-- Whether the data of an accounted call passes the gate. -/
def isSent (config : Config) (control : Control) (e : Encounter) : Bool :=
  (e.connection.moving? config e.incident).any fun p =>
    control.sends (control.forces p.1.id.key.pid) p.1

theorem isSome_call?_iff :
    e.call?.isSome = true ↔ ∃ c m, e.connection.moving? config e.incident = some (c, m) := by
  constructor
  · intro hcall
    cases hmoving : e.connection.moving? config e.incident with
    | none => simp [call?_of_not_moving hmoving] at hcall
    | some p => exact ⟨p.1, p.2, rfl⟩
  · rintro ⟨c, m, hmoving⟩
    rcases Connection.moving?_cases hmoving with ⟨o, hincident, htakes, _⟩ | ⟨o, hincident, htakes, _⟩
    · simp [call?, hincident, htakes]
    · simp [call?, hincident, htakes]

theorem isClosing_of_call? (h : e.call?.isSome = true) : e.incident.isClosing = false := by
  cases hincident : e.incident with
  | closed timestamp => simp [call?, hincident] at h
  | _ => rfl

/-- Nothing but an accounted call yields data. -/
theorem exists_moving_of_mem_chunks {x : DataChunk}
    (hx : x ∈ Event.chunks (e.reaction config control).events) :
    ∃ c m, e.connection.moving? config e.incident = some (c, m) := by
  cases hmoving : e.connection.moving? config e.incident with
  | none =>
    have hnone : Event.chunks (e.reaction config control).events = [] :=
      Connection.chunks_of_not_moving control hmoving
    rw [hnone] at hx
    cases hx
  | some p => exact ⟨p.1, p.2, rfl⟩

section Moving

variable {c : Connection} {m : Movement}
  (hmoving : e.connection.moving? config e.incident = some (c, m))

include hmoving

theorem connection_reaction :
    (e.reaction config control).connection = (c.account config.statsThreshold m).1 :=
  (Connection.undergo_of_moving control hmoving).1

theorem isSent_of_moving : e.isSent config control = control.sends (control.forces c.id.key.pid) c := by
  simp [isSent, hmoving]

/-- The gate looks at the connection as it is left. -/
theorem isSent_iff :
    e.isSent config control = true ↔
      control.LetsThrough (e.reaction config control).connection.snapshot := by
  rw [isSent_of_moving hmoving, Control.sends_iff, connection_reaction hmoving]
  simp [Control.LetsThrough, Connection.snapshot]

/-- What is sent are the chunks of the movement. -/
theorem chunks_reaction :
    Event.chunks (e.reaction config control).events =
      if e.isSent config control then
        c.chunks m (c.position m.direction) m.lengthHeader (m.pieces config.chunkLimits)
      else [] := by
  have hid : c.id = e.connection.id := (Connection.moving?_frame hmoving).1
  have hchunks : Event.chunks (e.reaction config control).events =
      (c.forward config.chunkLimits control (control.forces c.id.key.pid) m).1 := by
    rw [hid]
    exact Connection.chunks_of_moving control hmoving
  rw [hchunks, isSent_of_moving hmoving]
  split
  · next hsends => exact Connection.forward_of_sends control hsends
  · next hsends => exact Connection.forward_of_not_sends control hsends

theorem dataFiltered_reaction :
    (e.reaction config control).tally.dataFiltered = if e.isSent config control then 0 else 1 := by
  have hid : c.id = e.connection.id := (Connection.moving?_frame hmoving).1
  have hcounted := Connection.dataFiltered_of_moving control hmoving
  rw [isSent_of_moving hmoving, hid]
  exact hcounted

/-- A chunk shows the connection as it is left. -/
theorem shown_of_mem_chunks_reaction {x : DataChunk}
    (hx : x ∈ Event.chunks (e.reaction config control).events) :
    e.isSent config control = true ∧
      x.id = (e.reaction config control).connection.id ∧
      x.protocol = (e.reaction config control).connection.protocol ∧
      x.role = (e.reaction config control).connection.role ∧
      x.ssl = (e.reaction config control).connection.ssl := by
  rw [chunks_reaction hmoving] at hx
  split at hx
  · next hsent =>
    refine ⟨hsent, ?_⟩
    simpa [connection_reaction hmoving] using Connection.shown_of_mem_chunks hx
  · cases hx

/-- A whole call that is sent yields a chunk. -/
theorem chunks_reaction_ne_nil (hcheck : config.check = .ok ())
    (hmoved : e.incident.isEmpty = false) (hwhole : e.incident.isWhole = true)
    (hsent : e.isSent config control = true) :
    Event.chunks (e.reaction config control).events ≠ [] := by
  rw [chunks_reaction hmoving, if_pos hsent]
  apply Connection.chunks_ne_nil
  intro hnil
  have htotal := Connection.totalSize_of_isWhole hmoving hcheck hwhole
  rw [hnil] at htotal
  exact Connection.byteCount_of_moving hmoving hmoved htotal.symm

end Moving

end Encounter

/-! ## Steps -/

/-- A step that observes a whole call. -/
def Step.isWhole (s : Step) : Bool :=
  s.incident?.any Incident.isWhole

namespace Tracker

variable {t : Tracker} {s : Step} {key : ConnectionKey} {e : Encounter}

/-- A call that is accounted is met by a connection under its key. -/
theorem exists_encounter_of_takes (hkeyed : t.registry.IsKeyed) (htakes : t.takes s = true)
    (hkey : s.key? = some key) :
    ∃ e, t.encounter? s = some e ∧ e.call? = some s ∧ e.key = key := by
  have hcall := bind_call?_encounter (t := t) s
  rw [if_pos htakes, Option.bind_eq_some_iff] at hcall
  rcases hcall with ⟨e, hencounter, hcall⟩
  exact ⟨e, hencounter, hcall, key_of_encounter? hkeyed hencounter hkey⟩

theorem takes_of_call? (hencounter : t.encounter? s = some e) (hcall : e.call?.isSome = true) :
    t.takes s = true := by
  have hbind := bind_call?_encounter (t := t) s
  rw [hencounter, Option.bind_some] at hbind
  by_contra hno
  simp [hbind, hno] at hcall

/-- What is accounted leaves its connection under the key. -/
theorem find?_respond_of_call? (hkeyed : t.registry.IsKeyed) (hencounter : t.encounter? s = some e)
    (hcall : e.call?.isSome = true) :
    (t.respond s).registry.find? e.key = some (e.reaction t.config t.control).connection := by
  have hanswers := answers_respond hkeyed s
  rw [hencounter] at hanswers
  rw [hanswers.find?_key]
  exact Encounter.after?_of_not_closing (Encounter.isClosing_of_call? hcall)

theorem chunks_respond (hkeyed : t.registry.IsKeyed) (hencounter : t.encounter? s = some e) :
    Event.chunks (t.respond s).events = Event.chunks (e.reaction t.config t.control).events := by
  have hanswers := answers_respond hkeyed s
  rw [hencounter] at hanswers
  rw [hanswers.events_eq]

theorem dataFiltered_respond (hkeyed : t.registry.IsKeyed) (hencounter : t.encounter? s = some e) :
    (t.respond s).tally.dataFiltered = (e.reaction t.config t.control).tally.dataFiltered := by
  have htold := told_respond hkeyed s
  rw [hencounter] at htold
  simpa using! congrArg Counters.dataFiltered htold

/-- Data is only forwarded of a call that is accounted and let through, and it shows the connection as
it stands after the step. -/
theorem letsThrough_of_mem_chunks (hkeyed : t.registry.IsKeyed) {x : DataChunk}
    (hx : x ∈ Event.chunks (t.respond s).events) :
    t.takes s = true ∧ s.key? = some x.id.key ∧
      ∃ v, (t.next s).connection? x.id.key = some v ∧ v.id = x.id ∧ t.control.LetsThrough v ∧
        x.protocol = v.protocol ∧ x.role = v.role ∧ x.ssl = v.ssl := by
  cases hencounter : t.encounter? s with
  | none =>
    have hanswers := answers_respond hkeyed s
    rw [hencounter] at hanswers
    rw [hanswers.events_eq] at hx
    cases hx
  | some e =>
    rw [chunks_respond hkeyed hencounter] at hx
    rcases Encounter.exists_moving_of_mem_chunks hx with ⟨c, m, hmoving⟩
    have hcall : e.call?.isSome = true := Encounter.isSome_call?_iff.2 ⟨c, m, hmoving⟩
    have htakes := takes_of_call? hencounter hcall
    rcases Encounter.shown_of_mem_chunks_reaction hmoving hx with
      ⟨hsent, hid, hprotocol, hrole, hssl⟩
    rcases Chronicle.exists_key_of_takes htakes with ⟨key, hkey⟩
    have hsame : e.key = key := key_of_encounter? hkeyed hencounter hkey
    have hxkey : x.id.key = key := by
      rw [hid, ← hsame]
      exact congrArg ConnectionId.key (Connection.id_undergo t.control e.incident)
    -- The chunk names the connection that is found under its key after the step.
    have hfound := find?_respond_of_call? hkeyed hencounter hcall
    refine ⟨htakes, hxkey ▸ hkey, (e.reaction t.config t.control).connection.snapshot, ?_, hid.symm,
      (Encounter.isSent_iff hmoving).1 hsent, hprotocol, hrole, hssl⟩
    rw [hxkey, ← hsame, connection?, registry_next, hfound]
    rfl

/-- A call that is accounted is held back and counted, unless it is let through. -/
theorem connection?_of_takes (hkeyed : t.registry.IsKeyed) (hcheck : t.config.check = .ok ())
    (htakes : t.takes s = true) (hkey : s.key? = some key) :
    ∃ v, (t.next s).connection? key = some v ∧
      if t.control.LetsThrough v then
        (t.respond s).tally.dataFiltered = 0 ∧
          (s.isWhole = true → Event.chunks (t.respond s).events ≠ [])
      else
        (t.respond s).tally.dataFiltered = 1 ∧ Event.chunks (t.respond s).events = [] := by
  rcases exists_encounter_of_takes hkeyed htakes hkey with ⟨e, hencounter, hcall, rfl⟩
  have hcall : e.call?.isSome = true := by simp [hcall]
  rcases Encounter.isSome_call?_iff.1 hcall with ⟨c, m, hmoving⟩
  have hfound := find?_respond_of_call? hkeyed hencounter hcall
  refine ⟨(e.reaction t.config t.control).connection.snapshot, ?_, ?_⟩
  · rw [connection?, registry_next, hfound]
    rfl
  · rw [dataFiltered_respond hkeyed hencounter, chunks_respond hkeyed hencounter,
      Encounter.dataFiltered_reaction hmoving]
    split
    · next hlets =>
      have hsent := (Encounter.isSent_iff hmoving).2 hlets
      refine ⟨if_pos hsent, ?_⟩
      intro hwhole
      have hincident : s.incident? = some e.incident := incident_of_encounter? hencounter
      have hwhole : e.incident.isWhole = true := by simpa [Step.isWhole, hincident] using hwhole
      exact Encounter.chunks_reaction_ne_nil hmoving hcheck (isEmpty_of_encounter? hencounter)
        hwhole hsent
    · next hlets =>
      have hsent : ¬e.isSent t.config t.control = true := fun h =>
        hlets ((Encounter.isSent_iff hmoving).1 h)
      rw [Encounter.chunks_reaction hmoving, if_neg hsent, if_neg hsent]
      exact ⟨rfl, rfl⟩

/-! ## Runs -/

variable {config : Config} {control : Control}

/-- At every moment of a run, whatever a step forwards was let through, of a call that is accounted,
and shows the connection as it stands after the step. And a call that is accounted is held back and
counted as such, or it is let through, is not counted, and yields a chunk unless it is segmented. -/
theorem gate_exact (h : make config control = .ok t) (steps : List Step) (s : Step) :
    (∀ x ∈ Event.chunks ((t.run steps).respond s).events,
      s.key? = some x.id.key ∧
        ∃ v, (t.run (steps ++ [s])).connection? x.id.key = some v ∧ v.id = x.id ∧
          control.LetsThrough v ∧ x.protocol = v.protocol ∧ x.role = v.role ∧ x.ssl = v.ssl) ∧
    ∀ key, s.key? = some key → (t.run steps).takes s = true →
      ∃ v, (t.run (steps ++ [s])).connection? key = some v ∧
        if control.LetsThrough v then
          (t.run (steps ++ [s])).counters.dataFiltered = (t.run steps).counters.dataFiltered ∧
            (s.isWhole = true → Event.chunks ((t.run steps).respond s).events ≠ [])
        else
          (t.run (steps ++ [s])).counters.dataFiltered =
              (t.run steps).counters.dataFiltered + 1 ∧
            Event.chunks ((t.run steps).respond s).events = [] := by
  have hkeyed := keyed_run h steps
  rcases make_eq_ok h with ⟨hmade, hcheck, -⟩
  have hconfig : (t.run steps).config = config := by simp [hmade]
  have hcontrol : (t.run steps).control = control := by simp [hmade]
  have hnext : t.run (steps ++ [s]) = (t.run steps).next s := run_append t steps [s]
  have hcounted : (t.run (steps ++ [s])).counters.dataFiltered =
      (t.run steps).counters.dataFiltered + ((t.run steps).respond s).tally.dataFiltered :=
    congrArg Counters.dataFiltered (counters_concat t steps s)
  constructor
  · intro x hx
    have hshown := (letsThrough_of_mem_chunks hkeyed hx).2
    rwa [hcontrol, ← hnext] at hshown
  · intro key hkey htakes
    have hkept := connection?_of_takes hkeyed (hconfig ▸ hcheck) htakes hkey
    rw [hcontrol, ← hnext] at hkept
    rcases hkept with ⟨v, hv, hgate⟩
    refine ⟨v, hv, ?_⟩
    rw [hcounted]
    split at hgate
    · next hlets => simpa [hlets, hgate.1] using hgate.2
    · next hlets => simp [hlets, hgate.1, hgate.2]

/-- The request of a client yields a chunk, and is held back once the client is ordered to be
withheld. -/
theorem gate_exact_request :
    (∃ x ∈ Event.chunks
        ((standard.run [Session.connect ⟨7, 3⟩]).respond (Session.request ⟨7, 3⟩)).events,
      ∃ v, (standard.run ([Session.connect ⟨7, 3⟩] ++ [Session.request ⟨7, 3⟩])).connection?
          x.id.key = some v ∧ Control.everything.LetsThrough v) ∧
      Event.chunks ((standard.run [Session.connect ⟨7, 3⟩, .disable ⟨7, 3⟩ 1]).respond
        (Session.request ⟨7, 3⟩)).events = [] := by
  constructor
  · rcases gate_exact make_standard [Session.connect ⟨7, 3⟩] (Session.request ⟨7, 3⟩) with
      ⟨hsound, hcomplete⟩
    rcases hcomplete ⟨7, 3⟩ rfl (by decide +kernel) with ⟨v, hv, hgate⟩
    have hlets : Control.everything.LetsThrough v := by
      have hshown : ((standard.run ([Session.connect ⟨7, 3⟩] ++ [Session.request ⟨7, 3⟩])).connection?
          ⟨7, 3⟩).any (fun v => decide (Control.everything.LetsThrough v)) = true := by
        decide +kernel
      rw [hv] at hshown
      simpa using hshown
    rw [if_pos hlets] at hgate
    rcases List.exists_mem_of_ne_nil _ (hgate.2 rfl) with ⟨x, hx⟩
    rcases hsound x hx with ⟨-, v, hv, -, hlets, -⟩
    exact ⟨x, hx, v, hv, hlets⟩
  · rcases (gate_exact make_standard [Session.connect ⟨7, 3⟩, .disable ⟨7, 3⟩ 1]
      (Session.request ⟨7, 3⟩)).2 ⟨7, 3⟩ rfl (by decide +kernel) with ⟨v, hv, hgate⟩
    have hlets : ¬Control.everything.LetsThrough v := by
      have hshown : ((standard.run ([Session.connect ⟨7, 3⟩, .disable ⟨7, 3⟩ 1] ++
          [Session.request ⟨7, 3⟩])).connection? ⟨7, 3⟩).any
          (fun v => decide (¬Control.everything.LetsThrough v)) = true := by
        decide +kernel
      rw [hv] at hshown
      simpa using hshown
    rw [if_neg hlets] at hgate
    exact hgate.2

end Tracker

end FlowTrace
