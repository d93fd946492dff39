import FlowTrace.Proofs.Intake
import FlowTrace.Proofs.Sampling

/-!
# Latching — protocol and role are a fold over the samples

What a connection knows of its protocol and role can be told from the samples of the calls that its
incarnation has taken. They are read one after the other, with one carry handed on and with the
protocol that was found so far, into a list of verdicts. The connection shows the protocol of the
first verdict that names one, the role of its opening or else of the first verdict of a known kind,
and two counts. So what is latched stays, and after MongoDB nothing is recognised any more.
-/

namespace FlowTrace

/-! ## Samples -/

/-- The bytes by which a call is classified, and which way they went. -/
structure Sample where
  direction : Direction
  bytes : Bytes
  deriving DecidableEq, Repr

/-- The buffer of a payload, even if it is empty, or the first of its leading segments that is not. -/
def Payload.leading? (p : Payload) (limits : ChunkLimits) : Option Bytes :=
  match p with
  | flat buffer => some buffer
  | segments parts => (parts.take limits.inferenceSegments).find? fun part => !part.isEmpty

/-- The sample of a call is cut to what the call has moved. -/
def Step.sample? (limits : ChunkLimits) : Step → Option Sample
  | observe (.data o) =>
    (o.payload.leading? limits).map fun b => ⟨o.direction, b.take o.byteCount⟩
  | _ => none

/-! ## Readings -/

/-- What was made of some samples, and what the carry holds after them. -/
structure Reading where
  carry : Carry
  verdicts : List (Direction × Verdict)
  deriving DecidableEq, Repr

namespace Reading

def start : Reading :=
  ⟨.empty, []⟩

/-- The protocol of the first verdict that names one. -/
def protocol (r : Reading) : Protocol :=
  ((r.verdicts.find? fun v => v.2.protocol.isKnown).map fun v => v.2.protocol).getD .unknown

/-- The role that the first message of a known kind tells. -/
def role (r : Reading) : Role :=
  ((r.verdicts.find? fun v => v.2.messageType.isKnown).map fun v =>
    Role.ofTraffic v.1 v.2.messageType).getD .unknown

/-- How many verdicts name the protocol. -/
def matchCount (r : Reading) : Nat :=
  r.verdicts.countP fun v => v.2.protocol.isKnown && v.2.protocol == r.protocol

/-- Reads one more sample. -/
def next (e : Classifier) (r : Reading) (s : Sample) : Reading :=
  let (verdict, carry) := e.infer s.bytes r.carry r.protocol
  ⟨carry, r.verdicts ++ [(s.direction, verdict)]⟩

def ofSamples (e : Classifier) (samples : List Sample) : Reading :=
  samples.foldl (next e) start

end Reading

/-- The role that the beginning of an incarnation tells. -/
def Incident.role : Incident → Role
  | opened o => Role.ofHint o.hint
  | data _ | sendfile _ | tlsDetected | disabled _ | closed _ => .unknown

namespace Tracker

variable (t : Tracker) (steps : List Step) (key : ConnectionKey)

/-- The samples of the calls that the incarnation under a key has taken. -/
def samples : List Sample :=
  (t.taken steps ((t.chronicle steps).number key)).filterMap
    (Step.sample? t.config.chunkLimits)

def reading : Reading :=
  .ofSamples ⟨t.config.enabledProtocols⟩ (t.samples steps key)

/-- The role that the opening of the incarnation under a key has told, if it was opened. -/
def openingRole : Role :=
  (((t.chronicle steps).of ((t.chronicle steps).number key)).head?.map
    (·.incident.role)).getD .unknown

end Tracker

/-! ## The classifier -/

namespace Carry

variable (carry : Carry)

@[simp] theorem announcesLE_clearPrepend (length : Nat) :
    carry.clearPrepend.announcesLE length = carry.announcesLE length :=
  rfl

@[simp] theorem announcesBE_clearPrepend (length : Nat) :
    carry.clearPrepend.announcesBE length = carry.announcesBE length :=
  rfl

end Carry

namespace Protocol

@[simp] theorem recognise?_clearPrepend (p : Protocol) (b : Bytes) (carry : Carry) :
    p.recognise? b carry.clearPrepend = p.recognise? b carry := by
  cases p <;> rfl

theorem isKnown_of_mem_precedence {p : Protocol} (h : p ∈ precedence) : p.isKnown = true := by
  revert p
  decide

end Protocol

namespace Classifier

variable (e : Classifier) (b : Bytes) (carry : Carry) (latched : Protocol)

/-- The mark of an earlier header plays no part in what is made of a sample. -/
@[simp] theorem infer_clearPrepend :
    e.infer b carry.clearPrepend latched = e.infer b carry latched := by
  have hscan : e.scan b carry.clearPrepend = e.scan b carry := by simp [scan]
  have hkafka : Kafka.classify b carry.clearPrepend = Kafka.classify b carry := rfl
  simp only [infer, hscan, hkafka]
  rfl

/-- Nothing was recognised, or the verdict is that of an enabled signature. -/
theorem infer_cases :
    (e.infer b carry latched).1 = .unknown ∨
      ∃ p m, p ∈ Protocol.precedence ∧ e.enabled.contains p = true ∧
        p.recognise? b carry = some m ∧ (e.infer b carry latched).1 = ⟨p, m⟩ := by
  by_cases hmongo : latched = .mongo
  · exact Or.inl (by simp [infer, hmongo])
  · simp only [infer, if_neg hmongo, scan]
    cases hfound : (Protocol.precedence.filter e.enabled.contains).findSome? fun p =>
        (p.recognise? b carry).map (Verdict.mk p) with
    | none => exact Or.inl rfl
    | some verdict =>
      rcases List.exists_of_findSome?_eq_some hfound with ⟨p, hp, hverdict⟩
      rcases Option.map_eq_some_iff.1 hverdict with ⟨m, hm, rfl⟩
      have hmem := List.mem_filter.1 hp
      exact Or.inr ⟨p, m, hmem.1, hmem.2, hm, rfl⟩

/-- A verdict names a protocol, or nothing was recognised. -/
theorem infer_eq_unknown {e : Classifier} {b : Bytes} {carry : Carry} {latched : Protocol}
    (h : (e.infer b carry latched).1.protocol.isKnown = false) :
    (e.infer b carry latched).1 = .unknown := by
  rcases infer_cases e b carry latched with hnone | ⟨p, m, hp, _, _, hverdict⟩
  · exact hnone
  · -- Every protocol that is tried is a known one.
    rw [hverdict] at h
    have hknown : p.isKnown = true := Protocol.isKnown_of_mem_precedence hp
    rw [hknown] at h
    cases h

/-- Nothing is recognised on a connection that speaks MongoDB. -/
theorem infer_mongo : (e.infer b carry .mongo).1 = .unknown :=
  rfl

end Classifier

/-! ## Reading on -/

theorem Role.isResolved_ofTraffic (d : Direction) (m : MessageType) :
    (ofTraffic d m).isResolved = m.isKnown := by
  cases d <;> cases m <;> rfl

/-- The first that is found in two lists is that of the first list, unless nothing is found there. -/
theorem getD_find?_append {α β : Type} {p : α → Bool} {f : α → β} {q : β → Bool} {default : β}
    (hq : ∀ x, q (f x) = p x) (hdefault : q default = false) (xs ys : List α) :
    (((xs ++ ys).find? p).map f).getD default =
      if q (((xs.find? p).map f).getD default) then ((xs.find? p).map f).getD default
      else ((ys.find? p).map f).getD default := by
  cases hfound : xs.find? p with
  | none => simp [List.find?_append, hfound, hdefault]
  | some x =>
    have hx : p x = true := List.find?_some hfound
    simp [List.find?_append, hfound, hq, hx]

namespace Reading

variable {r r' : Reading} {more : List (Direction × Verdict)}

theorem protocol_append (h : r'.verdicts = r.verdicts ++ more) :
    r'.protocol = if r.protocol.isKnown then r.protocol
      else protocol ⟨r'.carry, more⟩ := by
  simp only [protocol, h]
  exact getD_find?_append (fun _ => rfl) rfl _ _

theorem role_append (h : r'.verdicts = r.verdicts ++ more) :
    r'.role = if r.role.isResolved then r.role else role ⟨r'.carry, more⟩ := by
  simp only [role, h]
  exact getD_find?_append (fun _ => Role.isResolved_ofTraffic _ _) rfl _ _

theorem protocol_concat {d : Direction} {v : Verdict} (h : r'.verdicts = r.verdicts ++ [(d, v)]) :
    r'.protocol = if r.protocol.isKnown then r.protocol else v.protocol := by
  have hone : protocol ⟨r'.carry, [(d, v)]⟩ = v.protocol := by
    cases hv : v.protocol <;> simp [protocol, hv, Protocol.isKnown]
  simpa only [hone] using protocol_append h

theorem role_concat {d : Direction} {v : Verdict} (h : r'.verdicts = r.verdicts ++ [(d, v)]) :
    r'.role = if r.role.isResolved then r.role else Role.ofTraffic d v.messageType := by
  have hone : role ⟨r'.carry, [(d, v)]⟩ = Role.ofTraffic d v.messageType := by
    cases hv : v.messageType <;> simp [role, hv, MessageType.isKnown, Role.ofTraffic]
  simpa only [hone] using role_append h

/-- While no protocol is found, no verdict names one. -/
theorem isKnown_of_mem_verdicts (h : r.protocol.isKnown = false) {v : Direction × Verdict}
    (hv : v ∈ r.verdicts) : v.2.protocol.isKnown = false := by
  cases hfound : r.verdicts.find? fun v => v.2.protocol.isKnown with
  | none => simpa using List.find?_eq_none.1 hfound v hv
  | some w =>
    have hw := List.find?_some hfound
    simp [protocol, hfound, hw] at h

theorem matchCount_concat {d : Direction} {v : Verdict}
    (h : r'.verdicts = r.verdicts ++ [(d, v)]) :
    r'.matchCount = r.matchCount +
      if v.protocol.isKnown && v.protocol == r'.protocol then 1 else 0 := by
  have hsame : (r.verdicts.countP fun w => w.2.protocol.isKnown && w.2.protocol == r'.protocol) =
      r.matchCount := by
    cases hknown : r.protocol.isKnown with
    | true =>
      have hprotocol : r'.protocol = r.protocol := by simp [protocol_append h, hknown]
      simp [matchCount, hprotocol]
    | false =>
      -- Nothing was counted yet, whatever is found now.
      apply List.countP_congr
      intro w hw
      simp [isKnown_of_mem_verdicts hknown hw]
  rw [← hsame]
  simp [matchCount, h, List.countP_append, List.countP_singleton]

end Reading

/-! ## One sample -/

namespace Connection

section Classify

variable (c : Connection) (e : Classifier) (d : Direction) (sample : Bytes)

theorem protocol_classify :
    (c.classify e d sample).protocol =
      if c.protocol.isKnown then c.protocol
      else (e.infer sample c.carry c.protocol).1.protocol := by
  simp only [classify]
  split
  · rfl
  · next hverdict =>
    -- Nothing was recognised, and what was unknown stays so.
    have hnone : (e.infer sample c.carry c.protocol).1.protocol = .unknown := by
      simpa [Protocol.isKnown] using hverdict
    cases hc : c.protocol <;> simp_all [Protocol.isKnown]

theorem role_classify :
    (c.classify e d sample).role =
      if c.role.isResolved then c.role
      else Role.ofTraffic d (e.infer sample c.carry c.protocol).1.messageType := by
  simp only [classify]
  split
  · rfl
  · next hverdict =>
    have hnone := Classifier.infer_eq_unknown (by simpa using hverdict)
    cases hc : c.role <;> simp [hnone, Role.isResolved, Verdict.unknown, Role.ofTraffic]

theorem matchCount_classify :
    (c.classify e d sample).matchCount = c.matchCount +
      if (e.infer sample c.carry c.protocol).1.protocol.isKnown &&
          (e.infer sample c.carry c.protocol).1.protocol == (c.classify e d sample).protocol
        then 1 else 0 := by
  simp only [classify]
  split
  · next hverdict =>
    generalize (if c.protocol.isKnown = true then c.protocol
      else (e.infer sample c.carry c.protocol).1.protocol) = p
    simp only [hverdict, Bool.true_and, beq_iff_eq]
    by_cases hp : (e.infer sample c.carry c.protocol).1.protocol = p <;> simp [hp]
  · next hverdict => simp [hverdict]

end Classify

/-- What a connection shows is what a reading says, besides the role of its opening. -/
structure Shows (c : Connection) (opening : Role) (r : Reading) : Prop where
  protocol_eq : c.protocol = r.protocol
  role_eq : c.role = if opening.isResolved then opening else r.role
  sampleCount_eq : c.sampleCount = r.verdicts.length
  matchCount_eq : c.matchCount = r.matchCount
  carry_eq : c.carry.clearPrepend = r.carry.clearPrepend

variable {c : Connection} {opening : Role} {r : Reading}

/-- One more sample leaves of a connection what it leaves of the reading. -/
theorem Shows.classify (h : c.Shows opening r) (e : Classifier) (d : Direction) (sample : Bytes) :
    (c.classify e d sample).Shows opening (r.next e ⟨d, sample⟩) := by
  have hinfer : e.infer sample c.carry c.protocol = e.infer sample r.carry r.protocol := by
    calc
      e.infer sample c.carry c.protocol
          = e.infer sample c.carry.clearPrepend r.protocol := by simp [h.protocol_eq]
      _ = e.infer sample r.carry r.protocol := by simp [h.carry_eq]
  have hverdicts : (r.next e ⟨d, sample⟩).verdicts =
      r.verdicts ++ [(d, (e.infer sample c.carry c.protocol).1)] := by
    simp [Reading.next, hinfer]
  have hprotocol : (c.classify e d sample).protocol = (r.next e ⟨d, sample⟩).protocol := by
    simp [protocol_classify, Reading.protocol_concat hverdicts, h.protocol_eq]
  refine ⟨hprotocol, ?_, ?_, ?_, ?_⟩
  · rw [role_classify, Reading.role_concat hverdicts, h.role_eq]
    -- The role of the opening comes before all others.
    cases hopening : opening.isResolved <;> simp [hopening]
  · obtain ⟨protocol, role, matchCount, hclassify⟩ := classify_eq c e d sample
    simp [hclassify, hverdicts, h.sampleCount_eq]
  · rw [matchCount_classify, Reading.matchCount_concat hverdicts, h.matchCount_eq, hprotocol]
  · obtain ⟨protocol, role, matchCount, hclassify⟩ := classify_eq c e d sample
    simp [hclassify, hinfer, Reading.next]

/-- Only the latches, their counts and the carry matter. -/
theorem Shows.congr {c' : Connection} (h : c.Shows opening r) (hprotocol : c'.protocol = c.protocol)
    (hrole : c'.role = c.role) (hsampleCount : c'.sampleCount = c.sampleCount)
    (hmatchCount : c'.matchCount = c.matchCount)
    (hcarry : c'.carry.clearPrepend = c.carry.clearPrepend) : c'.Shows opening r :=
  ⟨hprotocol.trans h.protocol_eq, hrole.trans h.role_eq, hsampleCount.trans h.sampleCount_eq,
    hmatchCount.trans h.matchCount_eq, hcarry.trans h.carry_eq⟩

theorem Shows.account (h : c.Shows opening r) (threshold : Nat) (m : Movement) :
    (c.account threshold m).1.Shows opening r := by
  rcases account_eq c threshold m with haccount | ⟨_, haccount⟩ <;> rw [haccount] <;>
    cases m.direction <;> exact h.congr rfl rfl rfl rfl rfl

end Connection

/-! ## What stays -/

namespace Connection

/-- What was known of a connection is still known of a later state of it. -/
structure Retains (c c' : Connection) : Prop where
  id_eq : c'.id = c.id
  protocol_eq : c.protocol.isKnown = true → c'.protocol = c.protocol
  role_eq : c.role.isResolved = true → c'.role = c.role

namespace Retains

variable {c c' c'' : Connection} {config : Config}

theorem refl (c : Connection) : c.Retains c :=
  ⟨rfl, fun _ => rfl, fun _ => rfl⟩

theorem trans (h : c.Retains c') (h' : c'.Retains c'') : c.Retains c'' := by
  refine ⟨h'.id_eq.trans h.id_eq, ?_, ?_⟩
  · intro hknown
    have hsame := h.protocol_eq hknown
    exact (h'.protocol_eq (hsame ▸ hknown)).trans hsame
  · intro hresolved
    have hsame := h.role_eq hresolved
    exact (h'.role_eq (hsame ▸ hresolved)).trans hsame

theorem classify (c : Connection) (e : Classifier) (d : Direction) (sample : Bytes) :
    c.Retains (c.classify e d sample) := by
  refine ⟨?_, ?_, ?_⟩
  · obtain ⟨protocol, role, matchCount, hclassify⟩ := classify_eq c e d sample
    rw [hclassify]
  · intro hknown
    simp [protocol_classify, hknown]
  · intro hresolved
    simp [role_classify, hresolved]

theorem sampled (c : Connection) (config : Config) (o : Transfer) :
    c.Retains (c.sampled config o) := by
  have hcleared : c.Retains { c with carry := c.carry.clearPrepend } :=
    ⟨rfl, fun _ => rfl, fun _ => rfl⟩
  simp only [Connection.sampled]
  split
  · exact hcleared.trans (classify _ _ _ _)
  · exact hcleared

theorem account (c : Connection) (threshold : Nat) (m : Movement) :
    c.Retains (c.account threshold m).1 := by
  refine ⟨?_, ?_, ?_⟩ <;> simp

theorem of_moving {i : Incident} {m : Movement} (h : c.moving? config i = some (c', m)) :
    c.Retains c' := by
  rcases moving?_cases h with ⟨o, _, _, rfl, _⟩ | ⟨_, _, _, rfl, _⟩
  · exact sampled c config o
  · exact refl c'

theorem undergo (c : Connection) (config : Config) (control : Control) (i : Incident) :
    c.Retains (c.undergo config control i).connection := by
  have hid : (c.undergo config control i).connection.id = c.id := id_undergo control i
  have hfound : ((c.undergo config control i).connection.protocol = c.protocol ∧
      (c.undergo config control i).connection.role = c.role) ∨ _ := found_undergo control i
  rcases hfound with ⟨hprotocol, hrole⟩ | ⟨o, hprotocol, hrole⟩
  · exact ⟨hid, fun _ => hprotocol, fun _ => hrole⟩
  · have hsampled := sampled c config o
    refine ⟨hid, ?_, ?_⟩
    · intro hknown
      rw [hprotocol, hsampled.protocol_eq hknown]
    · intro hresolved
      rw [hrole, hsampled.role_eq hresolved]

end Retains

end Connection

/-! ## One call -/

/-- A segment is cut after it was chosen, or before: as long as bytes moved it is the same one. -/
theorem Payload.sample?_eq (p : Payload) (limits : ChunkLimits) {count : Nat} (h : count ≠ 0) :
    p.sample? limits count = (p.leading? limits).map (·.take count) := by
  cases p with
  | flat buffer => rfl
  | segments parts =>
    have hempty : (fun part : Bytes => !(part.take count).isEmpty) = fun part => !part.isEmpty := by
      funext part
      cases part <;> cases count <;> simp_all
    simp only [sample?, leading?, List.find?_map, Function.comp_def, hempty]

namespace Connection

variable {c : Connection} {opening : Role} {r : Reading} (config : Config)

theorem Shows.sampled (h : c.Shows opening r) {o : Transfer} (hmoved : o.byteCount ≠ 0) :
    (c.sampled config o).Shows opening
      (((Step.observe (.data o)).sample? config.chunkLimits).toList.foldl
        (Reading.next ⟨config.enabledProtocols⟩) r) := by
  have hcleared : Shows { c with carry := c.carry.clearPrepend } opening r :=
    h.congr rfl rfl rfl rfl rfl
  have hsample := o.payload.sample?_eq config.chunkLimits hmoved
  cases hleading : o.payload.leading? config.chunkLimits with
  | none => simpa [Connection.sampled, Step.sample?, hsample, hleading] using hcleared
  | some b =>
    simpa [Connection.sampled, Step.sample?, hsample, hleading] using
      hcleared.classify ⟨config.enabledProtocols⟩ o.direction (b.take o.byteCount)

end Connection

namespace Encounter

variable {config : Config} {e : Encounter}

theorem call?_of_not_moving (h : e.connection.moving? config e.incident = none) :
    e.call? = none := by
  cases hincident : e.incident with
  | data o =>
    have htakes := Connection.not_takes_of_moving? (hincident ▸ h)
    simp [call?, hincident, htakes]
  | sendfile o =>
    have htraceable := Connection.not_traceable_of_moving? (hincident ▸ h)
    simp [call?, hincident, htraceable]
  | opened _ | tlsDetected | disabled _ | closed _ => simp [call?, hincident]

/-- An encounter leaves of a connection what its call leaves of the reading. -/
theorem shows_reaction (control : Control) {opening : Role} {r : Reading}
    (hmoved : e.incident.isEmpty = false) (h : e.connection.Shows opening r) :
    (e.reaction config control).connection.Shows opening
      ((e.call?.toList.filterMap (Step.sample? config.chunkLimits)).foldl
        (Reading.next ⟨config.enabledProtocols⟩) r) := by
  cases hmoving : e.connection.moving? config e.incident with
  | some p =>
    rcases p with ⟨c', m⟩
    have hreaction : (e.reaction config control).connection =
        (c'.account config.statsThreshold m).1 := (Connection.undergo_of_moving control hmoving).1
    rw [hreaction]
    rcases Connection.moving?_cases hmoving with
      ⟨o, hincident, htakes, rfl, rfl⟩ | ⟨o, hincident, htraceable, rfl, rfl⟩
    · have hcount : o.byteCount ≠ 0 := by simpa [hincident, Incident.isEmpty] using hmoved
      have hshows := (h.sampled config hcount).account config.statsThreshold
      cases hsample : (Step.observe (.data o)).sample? config.chunkLimits <;>
        simpa [call?, hincident, htakes, hsample] using hshows _
    · have hnone : (Step.observe (.sendfile o)).sample? config.chunkLimits = none := rfl
      simpa [call?, hincident, htraceable, hnone] using h.account config.statsThreshold _
  | none =>
    have hcall : e.call? = none := call?_of_not_moving hmoving
    have hkept : (e.reaction config control).connection.Shows opening r := by
      have hreaction : e.reaction config control =
          e.connection.undergo config control e.incident := rfl
      rw [hreaction]
      rcases Connection.undergo_of_not_moving control hmoving with h' | ⟨_, h'⟩ | ⟨_, _, h'⟩ <;>
        rw [h'] <;> exact h.congr rfl rfl rfl rfl rfl
    simpa [hcall] using hkept

end Encounter

/-! ## Whole incarnations -/

/-- The samples of the calls that some entries of an incarnation have taken. -/
def Entry.samples (limits : ChunkLimits) (es : List Entry) : List Sample :=
  (es.filterMap (·.call?)).filterMap (Step.sample? limits)

/-- What a live connection shows is what the samples of its entries say. -/
theorem Life.shows_invariant {config : Config} {control : Control} :
    Life.Invariant config control fun past c =>
      c.Shows ((past.head?.map (·.connection.role)).getD c.role)
        (.ofSamples ⟨config.enabledProtocols⟩ (Entry.samples config.chunkLimits past)) := by
  constructor
  · intro id address role
    refine ⟨rfl, ?_, rfl, rfl, rfl⟩
    cases role <;> rfl
  · intro past e hafter hclosing hpast
    -- The first entry tells the role for good, and it is this entry if there was none before.
    have hopening : ((past ++ [e]).head?.map (·.connection.role)).getD
        (e.reaction config control).connection.role =
          (past.head?.map (·.connection.role)).getD e.connection.role := by
      cases past <;> rfl
    have hsamples : Entry.samples config.chunkLimits (past ++ [e]) =
        Entry.samples config.chunkLimits past ++
          e.call?.toList.filterMap (Step.sample? config.chunkLimits) := by
      have hcall : [e].filterMap (·.call?) = e.call?.toList := by
        cases hnone : e.call? <;> simp [hnone]
      simp [Entry.samples, hcall]
    rw [hopening, hsamples, Reading.ofSamples, List.foldl_append]
    exact Encounter.shows_reaction control hafter.moved hpast

/-! ## Later samples -/

namespace Reading

variable {r r' : Reading} {more : List (Direction × Verdict)}

end Reading

theorem Encounter.IsBirth.role_eq {e : Encounter} (h : e.IsBirth) :
    e.connection.role = e.incident.role := by
  unfold IsBirth at h
  -- An order or a close begins nothing.
  cases hincident : e.incident <;> simp only [hincident] at h
  all_goals
    rw [h]
    rfl

/-- The role of an incarnation's first entry is the one that its opening has told. -/
theorem Life.role_head {config : Config} {control : Control} {e : Entry} {more : List Entry}
    {status : Option Connection} (h : Life config control (e :: more) status) :
    e.connection.role = e.incident.role := by
  have hfirst : Life config control ([] ++ e :: more) status := h
  rcases hfirst.split.2 with ⟨-, hbirth⟩ | hmet
  · exact hbirth.role_eq
  · exact absurd rfl hmet.ne_nil

namespace Tracker

variable {config : Config} {control : Control} {t : Tracker}

theorem shows_of_find? (h : make config control = .ok t) {steps : List Step} {key : ConnectionKey}
    {c : Connection} (hfound : (t.run steps).registry.find? key = some c) :
    c.Shows (t.openingRole steps key) (t.reading steps key) := by
  have hlife := life_of_find? h hfound
  have hshows := Life.shows_invariant.of_live hlife
  have hreading : t.reading steps key = .ofSamples ⟨config.enabledProtocols⟩
      (Entry.samples config.chunkLimits
        ((t.chronicle steps).of ((t.chronicle steps).number key))) := by
    have hconfig : t.config = config := by rw [(make_eq_ok h).1]
    simp [reading, samples, Entry.samples, taken_eq h, hconfig]
  have hopening : t.openingRole steps key =
      (((t.chronicle steps).of ((t.chronicle steps).number key)).head?.map
        (·.connection.role)).getD c.role := by
    unfold openingRole
    cases hof : (t.chronicle steps).of ((t.chronicle steps).number key) with
    | nil => exact absurd hof hlife.ne_nil
    | cons e more =>
      rw [hof] at hlife
      simp [hlife.role_head]
  rwa [hreading, hopening]

/-- The rest of a run adds to the entries of an incarnation. -/
theorem exists_of_append (t : Tracker) (steps rest : List Step) (n : Nat) :
    ∃ later, (t.chronicle (steps ++ rest)).of n = (t.chronicle steps).of n ++ later := by
  rcases (t.chronicle steps).exists_extends rest with ⟨later, hext⟩
  rw [← chronicle_append] at hext
  exact ⟨later.filter (·.number = n), by simp [Chronicle.of, hext.entries_eq]⟩

section Later

variable {steps rest : List Step} {key : ConnectionKey}
  (hsame : (t.chronicle (steps ++ rest)).number key = (t.chronicle steps).number key)

include hsame

end Later

end Tracker

end FlowTrace
