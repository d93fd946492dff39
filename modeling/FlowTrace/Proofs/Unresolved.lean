import FlowTrace.Proofs.Gate
import FlowTrace.Proofs.Occupancy
import FlowTrace.Proofs.Precedence

/-!
# Unresolved — data of a connection whose role is unknown

A connection that was met by its traffic has no role at first. All signatures but that of Redis tell
the kind of a message, and the role with it. So a protocol that is known without a role is Redis, and
it was enabled, `Connection.IsTold`.

The unknown role has a bit of its own. No named mask has it, but a mask may be any byte, and only the
mask of the unknown protocol is checked. Unless there is a target process, data is forwarded without
a role exactly if the mask of Redis has this bit and its signature is enabled, `unresolved_exactly`.
-/

namespace FlowTrace

/-! ## What a signature tells -/

/-- Only Redis is recognised without a kind of message. -/
theorem Protocol.isKnown_of_recognise? {p : Protocol} {b : Bytes} {carry : Carry} {m : MessageType}
    (h : p.recognise? b carry = some m) (hp : p ≠ .redis) : m.isKnown = true := by
  cases p with
  | redis => exact absurd rfl hp
  | unknown | http2 => cases h
  | _ => exact (MessageType.known?_eq_some_iff.1 h).2

namespace Classifier

variable {e : Classifier} {b : Bytes} {carry : Carry} {latched p : Protocol} {m : MessageType}

/-- A signature that is enabled decides alone, if no other one matches. -/
theorem infer_of_only (hlatched : latched ≠ .mongo) (henabled : e.enabled.contains p = true)
    (hp : p.recognise? b carry = some m) (honly : ∀ q, q ≠ p → q.recognise? b carry = none) :
    (e.infer b carry latched).1 = ⟨p, m⟩ := by
  have hfinds : e.Finds b carry p m := by
    refine ⟨henabled, hp, fun q hrank _ => honly q ?_⟩
    rintro rfl
    exact Nat.lt_irrefl _ hrank
  rw [infer_fst hlatched, hfinds.scan_eq]

end Classifier

/-! ## What a connection is told -/

/-- A role that is unknown after a sample was unknown before, and the sample does not tell it. -/
theorem Role.eq_unknown_of_latch {r found : Role}
    (h : (if r.isResolved then r else found) = .unknown) : r = .unknown ∧ found = .unknown := by
  cases r with
  | unknown => exact ⟨rfl, h⟩
  | client | server => cases h

namespace Connection

/-- What is known of the protocol was recognised by an enabled signature, and has told the role,
unless it is Redis. -/
def IsTold (config : Config) (c : Connection) : Prop :=
  c.protocol.isKnown = true →
    config.enabledProtocols.contains c.protocol = true ∧ (c.role = .unknown → c.protocol = .redis)

variable {config : Config} {control : Control} {c c' : Connection}

theorem IsTold.congr (h : c.IsTold config) (hprotocol : c'.protocol = c.protocol)
    (hrole : c'.role = c.role) : c'.IsTold config := by
  rwa [IsTold, hprotocol, hrole]

theorem IsTold.classify (h : c.IsTold config) (d : Direction) (sample : Bytes) :
    (c.classify ⟨config.enabledProtocols⟩ d sample).IsTold config := by
  intro hknown
  rw [protocol_classify] at hknown ⊢
  rw [role_classify]
  cases hbefore : c.protocol.isKnown with
  | true =>
    -- The protocol stays, and a role that is unknown now was unknown before.
    rcases h hbefore with ⟨henabled, hrole⟩
    refine ⟨by simpa using henabled, ?_⟩
    intro hunknown
    simpa using hrole (Role.eq_unknown_of_latch hunknown).1
  | false =>
    simp only [hbefore, Bool.false_eq_true, if_false] at hknown ⊢
    rcases Classifier.infer_cases ⟨config.enabledProtocols⟩ sample c.carry c.protocol with
      hnone | ⟨p, m, -, henabled, hrecognised, hverdict⟩
    · rw [hnone] at hknown
      cases hknown
    · rw [hverdict]
      refine ⟨henabled, ?_⟩
      intro hunknown
      by_contra hp
      have hresolved : (Role.ofTraffic d m).isResolved = true := by
        rw [Role.isResolved_ofTraffic]
        exact Protocol.isKnown_of_recognise? hrecognised hp
      rw [(Role.eq_unknown_of_latch hunknown).2] at hresolved
      cases hresolved

theorem IsTold.sampled (h : c.IsTold config) (o : Transfer) : (c.sampled config o).IsTold config := by
  have hcleared : IsTold config { c with carry := c.carry.clearPrepend } := h.congr rfl rfl
  simp only [Connection.sampled]
  split
  · exact hcleared.classify _ _
  · exact hcleared

theorem IsTold.undergo (h : c.IsTold config) (i : Incident) :
    (c.undergo config control i).connection.IsTold config := by
  rcases found_undergo control i with ⟨hprotocol, hrole⟩ | ⟨o, hprotocol, hrole⟩
  · exact h.congr hprotocol hrole
  · exact (h.sampled o).congr hprotocol hrole

end Connection

namespace Life

variable {config : Config} {control : Control} {past : List Entry} {status : Option Connection}

theorem isTold_invariant : Invariant config control fun _ c => c.IsTold config := by
  constructor
  · intro id address role hknown
    cases hknown
  · intro past e hafter hclosing htold
    exact htold.undergo e.incident

/-- Data that is forwarded without a role is Redis, and both the mask and the set of signatures let
it through. -/
theorem unresolved (h : Life config control past status)
    (htarget : ∀ pid, control.target ≠ .pid pid) {e : Entry} (he : e ∈ past) {x : DataChunk}
    (hx : x ∈ Event.chunks e.events) (hrole : x.role = .unknown) :
    x.protocol = .redis ∧ (control.masks .redis).bits &&& Role.unknown.bits ≠ 0 ∧
      config.enabledProtocols.contains .redis = true := by
  rcases List.append_of_mem he with ⟨before, after, rfl⟩
  rw [h.events_eq he] at hx
  have htold : (e.reaction config control).connection.IsTold config :=
    (isTold_invariant.of_met h).undergo e.incident
  rcases Encounter.exists_moving_of_mem_chunks hx with ⟨c, m, hmoving⟩
  rcases Encounter.shown_of_mem_chunks_reaction hmoving hx with ⟨hsent, -, hprotocol, hrole', -⟩
  rw [hrole] at hrole'
  rcases (Encounter.isSent_iff hmoving).1 hsent with ⟨-, -, hpid | ⟨hknown, hmask⟩⟩
  · exact absurd hpid (htarget _)
  · -- The protocol is known and the role is not, so it is Redis.
    rcases htold hknown with ⟨henabled, hredis⟩
    have hredis := hredis hrole'.symm
    have hmask : (control.masks (e.reaction config control).connection.protocol).bits &&&
        (e.reaction config control).connection.role.bits ≠ 0 := hmask
    rw [hredis] at henabled
    rw [hredis, ← hrole'] at hmask
    exact ⟨hprotocol.trans hredis, hmask, henabled⟩

end Life

/-! ## A value without a role -/

namespace Session

/-- An integer, as Redis writes it. -/
def value : Bytes :=
  Bytes.ofChars [':', '1', '0', '\r', '\n']

/-- The process writes a value. -/
def answering (key : ConnectionKey) : Transfer :=
  { requesting key with payload := .flat value, byteCount := 5 }

def answer (key : ConnectionKey) : Step :=
  .observe (.data (answering key))

/-- A value on a connection of which nothing is known. -/
def answered (id : ConnectionId) : Encounter :=
  ⟨.start id .unknown .unknown, true, .data (answering id.key)⟩

end Session

/-- Of all signatures, only that of Redis matches the value. -/
theorem Protocol.recognise?_value (q : Protocol) (hq : q ≠ .redis) :
    q.recognise? Session.value .empty = none := by
  revert hq
  cases q <;> decide

namespace Session

variable {config : Config} {control : Control} {id : ConnectionId}

/-- The value tells the protocol, but no role. -/
theorem sampled_answering (hredis : config.enabledProtocols.contains .redis = true)
    (id : ConnectionId) :
    ((Connection.start id .unknown .unknown).sampled config (answering id.key)).protocol = .redis ∧
      ((Connection.start id .unknown .unknown).sampled config (answering id.key)).role =
        .unknown := by
  have hsampled : (Connection.start id .unknown .unknown).sampled config (answering id.key) =
      (Connection.start id .unknown .unknown).classify ⟨config.enabledProtocols⟩ .egress value :=
    rfl
  have hverdict : (Classifier.infer ⟨config.enabledProtocols⟩ value .empty .unknown).1 =
      ⟨.redis, .unknown⟩ :=
    Classifier.infer_of_only (by decide) hredis rfl Protocol.recognise?_value
  rw [hsampled, Connection.protocol_classify, Connection.role_classify]
  constructor
  · exact congrArg Verdict.protocol hverdict
  · exact congrArg (fun v => Role.ofTraffic .egress v.messageType) hverdict

/-- A value is forwarded without a role, if the mask of Redis has the bit of the unknown role. -/
theorem chunks_answered (hcheck : config.check = .ok ())
    (hredis : config.enabledProtocols.contains .redis = true)
    (hmask : (control.masks .redis).bits &&& Role.unknown.bits ≠ 0)
    (hself : control.selfPid ≠ some id.key.pid) :
    ∃ x ∈ Event.chunks ((answered id).reaction config control).events, x.role = .unknown := by
  rcases sampled_answering hredis id with ⟨hprotocol, hrole⟩
  have hmoving : (answered id).connection.moving? config (answered id).incident = some _ :=
    Connection.moving?_of_takes rfl
  have hsent : (answered id).isSent config control = true := by
    have hlive : ((Connection.start id .unknown .unknown).sampled config
        (answering id.key)).isDisabled = false := by
      simp only [Connection.isDisabled, Connection.disabledUpTo_sampled]
      rfl
    have hallows : (control.masks .redis).allows .unknown = true := by
      simpa [TraceMask.allows] using hmask
    have hknown : Protocol.isKnown .redis = true := rfl
    have hself : control.selfPid ≠ some (Connection.start id .unknown .unknown).id.key.pid := hself
    rw [Encounter.isSent_of_moving hmoving]
    simp [Control.sends, hself, hlive, hprotocol, hrole, hallows, hknown, answered]
  rcases List.exists_mem_of_ne_nil _
    (Encounter.chunks_reaction_ne_nil hmoving hcheck rfl rfl hsent) with ⟨x, hx⟩
  have hshown := (Encounter.shown_of_mem_chunks_reaction hmoving hx).2.2.2.1
  refine ⟨x, hx, ?_⟩
  rw [hshown, Encounter.connection_reaction hmoving, Connection.role_account]
  exact hrole

end Session

namespace Tracker

variable {config : Config} {control : Control} {t : Tracker}

/-- A first value begins an incarnation of its own. -/
theorem encounter?_answer (h : make config control = .ok t)
    (htarget : ∀ pid, control.target ≠ .pid pid) (key : ConnectionKey) :
    t.encounter? (Session.answer key) =
      some (Session.answered ⟨key, 1, t.registry.nextGeneration⟩) := by
  rcases make_eq_ok h with ⟨rfl, hcheck, -⟩
  have hadmits : (Tracker.mk config control (.empty config.maxConnections config.capacityPolicy)
      {}).admits key.pid = true := by
    cases hcontrol : control.target with
    | pid pid => exact absurd hcontrol (htarget pid)
    | unspecified | all => simp [admits, hcontrol, Target.force?]
  have hcapacity : config.maxConnections ≠ 0 :=
    Config.bound_ne_zero hcheck .maxConnections (by simp [Config.bounds])
  have hroom : (Registry.empty config.maxConnections config.capacityPolicy).slots <
      (Registry.empty config.maxConnections config.capacityPolicy).capacity :=
    Nat.pos_of_ne_zero hcapacity
  have huntracked : (Registry.empty config.maxConnections config.capacityPolicy).find? key = none :=
    rfl
  simp [encounter?, sighting?, Session.answer, Session.answering, Session.requesting,
    Session.answered, hadmits, huntracked, Registry.create?_of_lt hroom]

/-- Unless there is a target process, data without a role is Redis, and there is such data exactly if
the mask of Redis has the bit of the unknown role and its signature is enabled. -/
theorem unresolved_exactly (h : make config control = .ok t)
    (htarget : ∀ pid, control.target ≠ .pid pid) :
    (∀ steps, ∀ x ∈ Event.chunks (t.events steps), x.role = .unknown → x.protocol = .redis) ∧
      ((∃ steps, ∃ x ∈ Event.chunks (t.events steps), x.role = .unknown) ↔
        (control.masks .redis).bits &&& Role.unknown.bits ≠ 0 ∧
          config.enabledProtocols.contains .redis = true) := by
  have hunresolved : ∀ steps, ∀ x ∈ Event.chunks (t.events steps), x.role = .unknown →
      x.protocol = .redis ∧ (control.masks .redis).bits &&& Role.unknown.bits ≠ 0 ∧
        config.enabledProtocols.contains .redis = true := by
    intro steps x hx hrole
    rw [← chunks_chronicle h steps] at hx
    rcases List.mem_flatMap.1 hx with ⟨e, he, hx⟩
    have hof := Chronicle.mem_of he
    rcases exists_life h steps (List.ne_nil_of_mem hof) with ⟨status, hlife⟩
    exact hlife.unresolved htarget hof hx hrole
  refine ⟨fun steps x hx hrole => (hunresolved steps x hx hrole).1, ?_, ?_⟩
  · rintro ⟨steps, x, hx, hrole⟩
    exact (hunresolved steps x hx hrole).2
  · rintro ⟨hmask, hredis⟩
    -- Any process will do that is not the monitoring one.
    have hother : ∃ pid, control.selfPid ≠ some pid := by
      rcases hself : control.selfPid with _ | pid
      · exact ⟨0, by simp⟩
      · exact ⟨pid + 1, by simp⟩
    rcases hother with ⟨pid, hself⟩
    rcases make_eq_ok h with ⟨hmade, hcheck, -⟩
    have hconfig : t.config = config := by simp [hmade]
    have hcontrol : t.control = control := by simp [hmade]
    have hkeyed : t.registry.IsKeyed := keyed_run h []
    refine ⟨[Session.answer ⟨pid, 3⟩], ?_⟩
    rw [events_singleton, chunks_respond hkeyed (encounter?_answer h htarget ⟨pid, 3⟩), hconfig,
      hcontrol]
    exact Session.chunks_answered hcheck hredis hmask hself

/-- A tracker whose mask of Redis has the bit of the unknown role. -/
def lenient : Tracker :=
  { standard with control := Control.everything.withMask .redis ⟨Role.unknown.bits⟩ }

/-- The lenient tracker forwards data without a role, and the standard one never does. -/
theorem unresolved_exactly_masks :
    (∃ steps, ∃ x ∈ Event.chunks (lenient.events steps), x.role = .unknown) ∧
      ¬∃ steps, ∃ x ∈ Event.chunks (standard.events steps), x.role = .unknown := by
  have hlenient : make .standard lenient.control = .ok lenient := rfl
  constructor
  · exact (unresolved_exactly hlenient (fun _ => nofun)).2.2 (by decide)
  · rw [(unresolved_exactly make_standard (fun _ => nofun)).2]
    decide

/-- A value is forwarded although it tells no role and nothing but the masks lets it through. -/
theorem unresolved_forwarded :
    make lenient.config lenient.control = .ok lenient ∧
      (∀ pid, lenient.control.target ≠ .pid pid) ∧
      ∃ x ∈ Event.chunks (lenient.events [Session.answer ⟨7, 3⟩]), x.role = .unknown := by
  refine ⟨rfl, fun _ => nofun, ?_⟩
  decide +kernel

end Tracker

end FlowTrace
