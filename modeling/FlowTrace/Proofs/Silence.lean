import FlowTrace.Proofs.Ledger

/-!
# Silence — connections of another address family

A connection whose remote end is no socket address is tracked like any other, but nothing is told of
it. It is not announced, and no bytes are ever taken of it, so that its close finds it as it began:
`Connection.IsBare`. That it leaves silently rests on this, for the close looks at the totals as well
as at the address.

Each call and the close are counted as skipped instead, once each.
-/

namespace FlowTrace

/-! ## One connection -/

namespace Connection

/-- Nothing has become of a connection since it began in a role, but that a TLS library was found to
work on it, or that orders were given about it. -/
def IsBare (c : Connection) (role : Role) : Prop :=
  c = { start c.id c.address role with ssl := c.ssl, disabledUpTo := c.disabledUpTo }

variable {c : Connection} {config : Config} (control : Control)

/-- Without a traceable address, nothing of an incident is accounted. -/
theorem moving?_of_not_traceable (h : c.address.isTraceable = false) (i : Incident) :
    c.moving? config i = none := by
  cases i <;> simp [moving?, takes, h]

theorem IsBare.undergo {role : Role} (h : c.IsBare role) (haddress : c.address.isTraceable = false)
    (i : Incident) : (c.undergo config control i).connection.IsBare role := by
  have hmoving : c.moving? config i = none := moving?_of_not_traceable haddress i
  -- What is not accounted leaves the connection, or writes one of the two fields that may differ.
  rcases undergo_of_not_moving control hmoving with hkept | ⟨_, htls⟩ | ⟨generation, _, horder⟩
  · rwa [hkept]
  · rw [htls]
    exact congrArg (fun d : Connection => { d with ssl := true }) h
  · rw [horder]
    exact congrArg (fun d : Connection =>
      { d with disabledUpTo := (c.disableUpTo generation).disabledUpTo }) h

/-- So it has moved and shown nothing. -/
theorem IsBare.blank {role : Role} (h : c.IsBare role) :
    c.written = 0 ∧ c.received = 0 ∧ c.reportedTotal = 0 ∧ c.protocol = .unknown ∧
      c.sampleCount = 0 ∧ c.role = role ∧ c.total = 0 := by
  rw [h]
  exact ⟨rfl, rfl, rfl, rfl, rfl, rfl, rfl⟩

/-- A connection that moved nothing leaves silently, if it has no address to report. -/
theorem IsBare.finish {role : Role} (h : c.IsBare role) (haddress : c.address.isTraceable = false)
    (timestamp : Timestamp) : c.finish timestamp = ([], { nonInetSkipped := 1 }) := by
  rcases h.blank with ⟨_, _, _, _, _, _, htotal⟩
  simp [Connection.finish, haddress, htotal]

end Connection

/-! ## Whole incarnations -/

namespace Life

variable {config : Config} {control : Control} {past : List Entry} {status : Option Connection}

/-- An incarnation keeps its address. -/
theorem address_invariant :
    Invariant config control fun past c => ∀ e ∈ past, e.connection.address = c.address := by
  constructor
  · intro id address role e he
    cases he
  · intro past e hafter hclosing hpast e' he'
    have haddress : (e.reaction config control).connection.address = e.connection.address :=
      Connection.address_undergo control e.incident
    rw [haddress]
    rcases List.mem_append.1 he' with hmem | hmem
    · exact hpast e' hmem
    · rw [List.mem_singleton.1 hmem]

/-- So any two of its entries show the same one. -/
theorem address_eq (h : Life config control past status) {e e' : Entry} (he : e ∈ past)
    (he' : e' ∈ past) : e.connection.address = e'.connection.address := by
  rcases List.eq_nil_or_concat past with rfl | ⟨front, last, rfl⟩
  · cases he
  · have hfront : ∀ x ∈ front, x.connection.address = last.connection.address := by
      have hlast : Life config control (front ++ last :: []) status := by simpa using h
      exact address_invariant.of_met hlast
    have hall : ∀ x ∈ front.concat last, x.connection.address = last.connection.address := by
      intro x hx
      rw [List.concat_eq_append] at hx
      rcases List.mem_append.1 hx with hmem | hmem
      · exact hfront x hmem
      · rw [List.mem_singleton.1 hmem]
    rw [hall e he, hall e' he']

/-- A connection of another family stays as it began. -/
theorem bare_invariant :
    Invariant config control fun _ c => c.address.isTraceable = false → c.IsBare c.role := by
  constructor
  · intro id address role _
    rfl
  · intro past e hafter hclosing hpast huntraceable
    have haddress : e.connection.address.isTraceable = false := by
      simpa [Encounter.reaction] using huntraceable
    have hbare : (e.reaction config control).connection.IsBare e.connection.role :=
      (hpast haddress).undergo control haddress e.incident
    rcases hbare.blank with ⟨_, _, _, _, _, hrole, _⟩
    rwa [hrole]

/-- Nothing is told of an incarnation of another family. -/
theorem events_eq_nil (h : Life config control past status) {e : Entry} (he : e ∈ past)
    (haddress : e.connection.address.isTraceable = false) : e.events = [] := by
  rcases List.append_of_mem he with ⟨before, after, rfl⟩
  have hbare := bare_invariant.of_met h haddress
  rcases h.split with ⟨hafter, hbegin⟩
  rw [hafter.events_eq]
  cases hincident : e.incident with
  | opened o =>
    -- The address that is announced is the one that the connection begins with.
    have hopening : e.incident.isOpening = true := by simp [hincident, Incident.isOpening]
    have hbirth : e.IsBirth := by
      rcases hbegin with ⟨_, hbirth⟩ | hmet
      · exact hbirth
      · exact absurd (hafter.opening hopening) hmet.ne_nil
    have hstart : e.connection.address = o.address := by
      simp only [Encounter.IsBirth, hincident] at hbirth
      rw [hbirth]
      rfl
    rw [hstart] at haddress
    simp [Encounter.reaction, hincident, Connection.undergo, Connection.announcement, haddress]
  | closed timestamp =>
    simp [Encounter.reaction, hincident, Connection.undergo, hbare.finish haddress]
  | data _ | sendfile _ | tlsDetected | disabled _ =>
    apply Connection.undergo_silent control (Connection.moving?_of_not_traceable haddress _)
    · simp [hincident, Incident.isOpening]
    · simp [hincident, Incident.isClosing]

end Life

/-- Without samples, a connection shows the role of its opening. -/
theorem Connection.Shows.role_of_no_samples {c : Connection} {opening : Role} {r : Reading}
    (h : c.Shows opening r) (hnone : c.sampleCount = 0) : c.role = opening := by
  have hverdicts : r.verdicts = [] := by
    rw [← List.length_eq_zero_iff, ← h.sampleCount_eq, hnone]
  rw [h.role_eq]
  cases opening <;> simp [Role.isResolved, Reading.role, hverdicts]

/-! ## Steps -/

/-- A step that lets bytes move on a handle, or closes it. -/
def Step.isTraffic : Step → Bool
  | observe (.data o) => o.byteCount != 0
  | observe (.sendfile o) => o.byteCount != 0
  | observe (.closed _) => true
  | observe (.opened _) | observe (.tlsDetected _) | observe (.cleanup _) => false
  | disable _ _ | look _ => false

namespace Tracker

variable {config : Config} {control : Control} {t : Tracker} {key : ConnectionKey} {s : Step}

/-- A tracked connection of another family is skipped by each step that would report it. -/
theorem skipped_respond {c : Connection} {role : Role} (hfound : t.registry.find? key = some c)
    (hbare : c.IsBare role) (haddress : c.address.isTraceable = false)
    (hadmits : t.admits key.pid = true) (hkey : s.key? = some key) (htraffic : s.isTraffic = true) :
    (t.respond s).events = [] ∧ (t.respond s).tally.nonInetSkipped = 1 := by
  -- The observation itself is counted elsewhere.
  have hsum : ∀ tally : Counters,
      (({ observations := 1 } : Counters) + tally).nonInetSkipped = tally.nonInetSkipped :=
    fun tally => UInt64.zero_add _
  cases s with
  | disable _ _ | look _ => cases htraffic
  | observe o =>
    cases o with
    | opened _ | tlsDetected _ | cleanup _ => cases htraffic
    | data o =>
      cases hkey
      have hmoved : o.byteCount ≠ 0 := by simpa [Step.isTraffic] using htraffic
      simp [respond, observed, observed.counted, transferred, hmoved, admitting_of_admits hadmits,
        reacting, hfound, Connection.transfer, haddress, hsum]
    | sendfile o =>
      cases hkey
      have hmoved : o.byteCount ≠ 0 := by simpa [Step.isTraffic] using htraffic
      simp [respond, observed, observed.counted, fileTransferred, hmoved,
        admitting_of_admits hadmits, reacting, hfound, Connection.transferFile, haddress, hsum]
    | closed o =>
      cases hkey
      have hclosed : ∀ tally : Counters,
          (({ connectionsClosed := 1 } : Counters) + tally).nonInetSkipped = tally.nonInetSkipped :=
        fun tally => UInt64.zero_add _
      simp [respond, observed, observed.counted, closed, admitting_of_admits hadmits, hfound,
        hbare.finish haddress, hsum, hclosed]

/-- In every run, an incarnation of another address family keeps its address and has no events. While
it is tracked it shows what it began with, and each call and the close is skipped and counted once.
As long as no generation is issued twice, no event of the run has its identity. -/
theorem otherFamily_silent (h : make config control = .ok t) (steps : List Step) :
    (t.chronicle steps).entries.flatMap Entry.events = t.events steps ∧
      (∀ n, ∀ e ∈ (t.chronicle steps).of n, ∀ family, e.connection.address = .other family →
        ∀ e' ∈ (t.chronicle steps).of n,
          e'.connection.address = .other family ∧ e'.events = []) ∧
      (t.issued steps < UInt64.size → ∀ e ∈ (t.chronicle steps).entries, ∀ family,
        e.connection.address = .other family → ∀ x ∈ t.events steps, x.id ≠ e.connection.id) ∧
      ∀ key c family, (t.run steps).registry.find? key = some c → c.address = .other family →
        c.written = 0 ∧ c.received = 0 ∧ c.reportedTotal = 0 ∧ c.protocol = .unknown ∧
        c.sampleCount = 0 ∧ c.role = t.openingRole steps key ∧
        ∀ s, s.key? = some key → s.isTraffic = true → t.admits key.pid = true →
          ((t.run steps).respond s).events = [] ∧
          (t.run (steps ++ [s])).counters.nonInetSkipped =
            (t.run steps).counters.nonInetSkipped + 1 := by
  have hsilent : ∀ n, ∀ e ∈ (t.chronicle steps).of n, ∀ family,
      e.connection.address = .other family → ∀ e' ∈ (t.chronicle steps).of n,
        e'.connection.address = .other family ∧ e'.events = [] := by
    intro n e he family haddress e' he'
    rcases exists_life h steps (List.ne_nil_of_mem he) with ⟨status, hlife⟩
    have hsame : e'.connection.address = .other family :=
      (hlife.address_eq he' he).trans haddress
    have huntraceable : e'.connection.address.isTraceable = false := by
      rw [hsame]
      rfl
    exact ⟨hsame, hlife.events_eq_nil he' huntraceable⟩
  refine ⟨events_chronicle h steps, hsilent, ?_, ?_⟩
  · intro hfew e he family haddress x hx hid
    rw [← events_chronicle h steps] at hx
    rcases List.mem_flatMap.1 hx with ⟨e', he', hx⟩
    -- An event tells the number of its incarnation, so it would be one of an incarnation without any.
    have hnumber : e'.number = e.number := by
      have hevent := generation_of_event h hfew he' hx
      have hentry := toNat_generation h hfew he
      rw [hid, hentry] at hevent
      omega
    have hof : e' ∈ (t.chronicle steps).of e.number := hnumber ▸ Chronicle.mem_of he'
    rw [(hsilent e.number e (Chronicle.mem_of he) family haddress e' hof).2] at hx
    cases hx
  · intro key c family hfound haddress
    have huntraceable : c.address.isTraceable = false := by
      rw [haddress]
      rfl
    have hbare := Life.bare_invariant.of_live (life_of_find? h hfound) huntraceable
    rcases hbare.blank with ⟨hwritten, hreceived, hreported, hprotocol, hsamples, _, _⟩
    have hrole := (shows_of_find? h hfound).role_of_no_samples hsamples
    refine ⟨hwritten, hreceived, hreported, hprotocol, hsamples, hrole, ?_⟩
    intro s hkey htraffic hadmits
    have hadmits' : (t.run steps).admits key.pid = true := by simpa [admits] using hadmits
    rcases skipped_respond hfound hbare huntraceable hadmits' hkey htraffic with
      ⟨hevents, hskipped⟩
    refine ⟨hevents, ?_⟩
    rw [counters_concat, ← hskipped]
    rfl

end Tracker

/-! ## A local socket -/

namespace Session

/-- The client connects to a server on the same machine, which has no socket address. -/
def connectLocally (key : ConnectionKey) : Step :=
  .observe (.opened { connecting key with address := .other 1 })

end Session

namespace Tracker

/-- The upload over a local socket reports nothing, and its close is skipped like its calls. -/
theorem otherFamily_silent_upload :
    make .standard .everything = .ok standard ∧
      ∃ c, (standard.run [Session.connectLocally ⟨7, 3⟩, Session.request ⟨7, 3⟩,
          Session.file ⟨7, 3⟩]).registry.find? ⟨7, 3⟩ = some c ∧
        c.address = .other 1 ∧ c.written = 0 ∧ c.role = .client ∧
        (standard.run [Session.connectLocally ⟨7, 3⟩, Session.request ⟨7, 3⟩, Session.file ⟨7, 3⟩,
          Session.close ⟨7, 3⟩]).counters.nonInetSkipped = 4 := by
  have htracked : ((standard.run [Session.connectLocally ⟨7, 3⟩, Session.request ⟨7, 3⟩,
      Session.file ⟨7, 3⟩]).registry.find? ⟨7, 3⟩).map (·.address) = some (.other 1) := by
    decide +kernel
  have hopening : standard.openingRole [Session.connectLocally ⟨7, 3⟩, Session.request ⟨7, 3⟩,
      Session.file ⟨7, 3⟩] ⟨7, 3⟩ = .client := by decide +kernel
  have hthree : (standard.run [Session.connectLocally ⟨7, 3⟩, Session.request ⟨7, 3⟩,
      Session.file ⟨7, 3⟩]).counters.nonInetSkipped = 3 := by decide +kernel
  rcases Option.map_eq_some_iff.1 htracked with ⟨c, hfound, haddress⟩
  rcases (otherFamily_silent make_standard _).2.2.2 _ c 1 hfound haddress with
    ⟨hwritten, -, -, -, -, hrole, hsteps⟩
  have hclose := (hsteps (Session.close ⟨7, 3⟩) rfl rfl rfl).2
  rw [hthree] at hclose
  exact ⟨make_standard, c, hfound, haddress, hwritten, hrole.trans hopening, hclose⟩

end Tracker

end FlowTrace
