import FlowTrace.Proofs.Gate

/-!
# Withholding — how far an order to stop forwarding reaches

An order to stop forwarding the data of a key, up to some generation, is written on the connection
that is tracked under the key at that moment.

* It holds to the end of that incarnation: no later order takes it back, `Life.disabled_invariant`.
* It is lost with that incarnation. One that begins later starts without orders, even if its
  generation was named, so `withholds_iff` asks of the later ones, and only of them, that they
  forward nothing on their own account.

An order is therefore kept whatever comes next exactly if it names no generation that is still to be
issued, provided that the key's requests are forwarded at all.
-/

namespace FlowTrace

/-! ## One incarnation -/

/-- Whether an incident is an order that covers a generation. -/
def Incident.withholds (generation : UInt64) : Incident → Bool
  | disabled n => generation ≤ n
  | _ => false

namespace Connection

variable {c : Connection} (config : Config) (control : Control)

theorem isDisabled_disableUpTo (n : UInt64) :
    (c.disableUpTo n).isDisabled = (c.isDisabled || decide (c.id.generation ≤ n)) := by
  cases hup : c.disabledUpTo with
  | none => simp [isDisabled, disableUpTo, hup]
  | some m =>
    -- The larger bound covers a generation exactly if one of the two does.
    have hmax : c.id.generation ≤ max m n ↔ c.id.generation ≤ m ∨ c.id.generation ≤ n := by
      rw [UInt64.max_def]
      split <;> grind
    simp [isDisabled, disableUpTo, hup, hmax]

/-- An incident disables a connection only as an order, and never enables it. -/
theorem isDisabled_undergo (i : Incident) :
    (c.undergo config control i).connection.isDisabled =
      (c.isDisabled || i.withholds c.id.generation) := by
  cases hmoving : c.moving? config i with
  | some p =>
    rcases p with ⟨c', m⟩
    have hconnection := (undergo_of_moving control hmoving).1
    have hkept : (c.undergo config control i).connection.isDisabled = c.isDisabled := by
      rcases moving?_frame hmoving with ⟨hid, -, hup, -⟩
      simp [isDisabled, hconnection, hid, hup]
    have hno : i.withholds c.id.generation = false := by
      rcases moving?_cases hmoving with ⟨_, rfl, _⟩ | ⟨_, rfl, _⟩ <;> rfl
    simp [hkept, hno]
  | none =>
    cases i with
    | disabled n => exact isDisabled_disableUpTo n
    | data o | sendfile o =>
      rcases undergo_of_not_moving control hmoving with h | ⟨hi, _⟩ | ⟨_, hi, _⟩
      · simp [h, Incident.withholds]
      · cases hi
      · cases hi
    | opened o => simp [undergo, Incident.withholds]
    | tlsDetected => exact (Bool.or_false _).symm
    | closed timestamp => simp [undergo, Incident.withholds]

/-- Nothing of a disabled connection is forwarded, even if its process is forced. -/
theorem chunks_of_isDisabled (h : c.isDisabled = true) (i : Incident) :
    Event.chunks (c.undergo config control i).events = [] := by
  cases hmoving : c.moving? config i with
  | none => exact chunks_of_not_moving control hmoving
  | some p =>
    rcases p with ⟨c', m⟩
    -- Classification does not lift an order.
    have hdisabled : c'.isDisabled = true := by
      rcases moving?_frame hmoving with ⟨hid, -, hup, -⟩
      simpa [isDisabled, hid, hup] using h
    have hsends : control.sends (control.forces c.id.key.pid) c' = false := by
      simp [Control.sends, hdisabled]
    simp [chunks_of_moving control hmoving, forward, hsends]

end Connection

/-- A live incarnation is disabled exactly if an order that covers it was given to it. -/
theorem Life.disabled_invariant {config : Config} {control : Control} :
    Life.Invariant config control fun past c =>
      c.isDisabled = past.any (·.incident.withholds c.id.generation) := by
  constructor
  · intro id address role
    rfl
  · intro past e hafter hclosing hpast
    have hid : (e.reaction config control).connection.id = e.connection.id :=
      Connection.id_undergo control e.incident
    have hstep : (e.reaction config control).connection.isDisabled =
        (e.connection.isDisabled || e.incident.withholds e.connection.id.generation) :=
      Connection.isDisabled_undergo config control e.incident
    rw [hstep, hid, hpast]
    simp

/-! ## Runs -/

namespace Tracker

/-- In a run from here on, data of a key is forwarded for later generations only. -/
def Withholds (t : Tracker) (key : ConnectionKey) (n : UInt64) (steps : List Step) : Prop :=
  ∀ chunk ∈ Event.chunks (t.events steps), chunk.id.key = key → n < chunk.id.generation

instance (t : Tracker) (key : ConnectionKey) (n : UInt64) (steps : List Step) :
    Decidable (t.Withholds key n steps) :=
  inferInstanceAs (Decidable (∀ chunk ∈ Event.chunks (t.events steps), _))

end Tracker

/-- The same of a single step. -/
def Entry.Withholds (e : Entry) (key : ConnectionKey) (n : UInt64) : Prop :=
  ∀ chunk ∈ Event.chunks e.events, chunk.id.key = key → n < chunk.id.generation

namespace Chronicle

variable {h : Chronicle}

theorem Valid.id_of_mem_chunks (hv : h.Valid) {e : Entry} (he : e ∈ h.entries) {chunk : DataChunk}
    (hchunk : chunk ∈ Event.chunks e.events) : chunk.id = e.connection.id := by
  rcases hv.life_of_mem he with ⟨status, hlife⟩
  have hevents := hlife.events_eq (mem_of he)
  rw [hevents] at hchunk
  exact Connection.id_of_mem_chunks_undergo _ hchunk

/-- An order is kept by what its own incarnation does later. -/
theorem Valid.withholds_of_order (hv : h.Valid) {before after : List Entry} {d e : Entry}
    (hentries : h.entries = before ++ e :: after) (hd : d ∈ before) (hnumber : d.number = e.number)
    {n : UInt64} (hincident : d.incident = .disabled n) (key : ConnectionKey) :
    e.Withholds key n := by
  intro chunk hchunk _
  have he : e ∈ h.entries := by simp [hentries]
  have hlife := hv.life_before hentries hd hnumber
  rcases hv.life_of_mem he with ⟨status, hwhole⟩
  have hid : chunk.id = e.connection.id := hv.id_of_mem_chunks he hchunk
  rw [hid]
  -- An order that covers the generation is among the earlier entries, so nothing was forwarded.
  by_contra hcovered
  have horder : d.incident.withholds e.connection.id.generation = true := by
    simpa [hincident, Incident.withholds] using UInt64.not_lt.mp hcovered
  have hdisabled : e.connection.isDisabled = true := by
    rw [Life.disabled_invariant.of_live hlife, List.any_eq_true]
    exact ⟨d, List.mem_filter.2 ⟨hd, by simpa using hnumber⟩, horder⟩
  have hnone : Event.chunks e.events = [] := by
    rw [hwhole.events_eq (mem_of he)]
    exact Connection.chunks_of_isDisabled _ _ hdisabled _
  rw [hnone] at hchunk
  cases hchunk

/-- An order is an entry of the incarnation that its key is tracked as, and begins none. -/
theorem Valid.next_order (hv : h.Valid) {key : ConnectionKey} {c : Connection}
    (hfound : h.tracker.registry.find? key = some c) (n : UInt64) :
    (h.next (.disable key n)).begun = h.begun ∧
      ∃ d, (h.next (.disable key n)).entries = h.entries ++ [d] ∧ d.incident = .disabled n ∧
        d.number = (h.next (.disable key n)).number key := by
  have hencounter : h.tracker.encounter? (.disable key n) = some ⟨c, false, .disabled n⟩ := by
    simp [Tracker.encounter?, hfound]
  have hkey : c.id.key = key := hv.keyed key c hfound
  rw [next_of_encounter hencounter]
  refine ⟨rfl, h.entry (.disable key n) ⟨c, false, .disabled n⟩, rfl, rfl, ?_⟩
  simp [entry, Encounter.key, hkey]

end Chronicle

namespace Tracker

variable {config : Config} {control : Control} {t : Tracker}

/-- An order that was applied is on the connection of its key. -/
theorem find?_of_applied {t : Tracker} {key : ConnectionKey} {n : UInt64}
    (happlied : (t.respond (.disable key n)).reply = .applied true) :
    ∃ c, t.registry.find? key = some c ∧
      (t.next (.disable key n)).registry.find? key = some (c.disableUpTo n) := by
  cases hfound : t.registry.find? key with
  | some c => exact ⟨c, rfl, by simp [respond, disabled, hfound]⟩
  | none => simp [respond, disabled, hfound] at happlied

/-- An order is kept from then on exactly if the incarnations that begin later keep it on their own
account. -/
theorem withholds_iff (h : make config control = .ok t) {first : List Step} {key : ConnectionKey}
    {n : UInt64} (happlied : ((t.run first).respond (.disable key n)).reply = .applied true)
    (rest : List Step) :
    (t.run (first ++ [.disable key n])).Withholds key n rest ↔
      ∀ e ∈ (t.chronicle (first ++ [.disable key n] ++ rest)).entries,
        t.issued first ≤ e.number → e.Withholds key n := by
  have hvalid := valid_chronicle h first
  have hwhole := valid_chronicle h (first ++ [.disable key n] ++ rest)
  rcases find?_of_applied happlied with ⟨c, hfound, -⟩
  rw [← tracker_chronicle] at hfound
  rcases hvalid.next_order hfound n with ⟨hbegun, d, hbefore, hincident, hnumber⟩
  rw [← chronicle_concat] at hbefore hnumber hbegun
  rw [begun_chronicle h first] at hbegun
  rcases exists_later h (first ++ [.disable key n]) rest with ⟨later, hext, hevents⟩
  -- What the rest of the run forwards are the chunks of the later entries.
  have hchunks : Event.chunks ((t.run (first ++ [.disable key n])).events rest) =
      later.flatMap fun e => Event.chunks e.events := by
    rw [← hevents]
    exact (Entry.flatMap_chunks later).symm
  constructor
  · intro hkept e he hlate chunk hchunk
    have hmem : e ∈ later :=
      hext.mem_later (valid_chronicle h _) he (by omega)
    apply hkept
    rw [hchunks]
    exact List.mem_flatMap.2 ⟨e, hmem, hchunk⟩
  · intro hlate chunk hchunk hkey
    rw [hchunks] at hchunk
    rcases List.mem_flatMap.1 hchunk with ⟨e, he, hchunk'⟩
    have hmem : e ∈ (t.chronicle (first ++ [.disable key n] ++ rest)).entries := by
      rw [hext.entries_eq]
      exact List.mem_append_right _ he
    have hekey : e.key = key := by
      have hid := hwhole.id_of_mem_chunks hmem hchunk'
      rw [← hkey, hid]
      rfl
    rcases hext.later_number e he with hsame | hnew
    · -- The key has kept its number, so this is the incarnation to which the order was given.
      rcases List.append_of_mem he with ⟨before, after, rfl⟩
      have hentries : (t.chronicle (first ++ [.disable key n] ++ rest)).entries =
          ((t.chronicle first).entries ++ [d] ++ before) ++ e :: after := by
        rw [hext.entries_eq, hbefore]
        simp
      have hd : d.number = e.number := by
        rw [hsame, hekey, hnumber]
      exact hwhole.withholds_of_order hentries (by simp) hd hincident key chunk hchunk' hkey
    · exact hlate e hmem (by omega) chunk hchunk' hkey

/-- An order that names no generation yet to be issued is kept. -/
theorem withholds_of_issued (h : make config control = .ok t) {first : List Step}
    {key : ConnectionKey} {n : UInt64}
    (happlied : ((t.run first).respond (.disable key n)).reply = .applied true)
    (hissued : n.toNat ≤ t.issued first) {rest : List Step}
    (hfew : t.issued (first ++ [.disable key n] ++ rest) < UInt64.size) :
    (t.run (first ++ [.disable key n])).Withholds key n rest := by
  rw [withholds_iff h happlied rest]
  intro e he hlate chunk hchunk _
  have hid := (valid_chronicle h _).id_of_mem_chunks he hchunk
  have hgeneration := toNat_generation h hfew he
  rw [hid, UInt64.lt_iff_toNat_lt]
  omega

end Tracker

/-! ## What is forwarded otherwise -/

/-- The requests that a client writes under a key are forwarded. -/
def Control.ForwardsRequests (control : Control) (config : Config) (key : ConnectionKey) : Prop :=
  control.selfPid ≠ some key.pid ∧
    (control.target.force? key.pid = some true ∨
      control.target.force? key.pid = some false ∧
        config.enabledProtocols.contains .http = true ∧
        (control.masks .http).allows .client = true)

/-- A request of a client that has done nothing yet. -/
def Session.requested (id : ConnectionId) (address : RemoteAddress) : Encounter :=
  ⟨.start id address .client, false, .data (requesting id.key)⟩

namespace Connection

variable {config : Config} {control : Control}

/-- The request is recognised, whatever the carry holds. -/
theorem infer_requestLine {e : Classifier} (hhttp : e.enabled.contains .http = true)
    (carry : Carry) : (e.infer Session.requestLine carry .unknown).1 = ⟨.http, .request⟩ := by
  have hrecognised : Protocol.recognise? .http Session.requestLine carry = some .request := rfl
  simp [Classifier.infer, Classifier.scan, Protocol.precedence, hhttp, hrecognised]

theorem sampled_requesting (hhttp : config.enabledProtocols.contains .http = true)
    (key : ConnectionKey) (id : ConnectionId) (address : RemoteAddress) :
    ((start id address .client).sampled config (Session.requesting key)).protocol = .http ∧
      ((start id address .client).sampled config (Session.requesting key)).role = .client := by
  have hsampled : (start id address .client).sampled config (Session.requesting key) =
      (start id address .client).classify ⟨config.enabledProtocols⟩ .egress Session.requestLine :=
    rfl
  have hverdict := infer_requestLine (e := ⟨config.enabledProtocols⟩) hhttp .empty
  -- Nothing is latched yet, so the protocol is, and the role is that of the opening.
  have hknown : Protocol.isKnown .http = true := rfl
  have hunknown : Protocol.isKnown .unknown = false := rfl
  have hresolved : Role.isResolved .client = true := rfl
  rw [hsampled]
  simp [classify, start, hverdict, hknown, hunknown, hresolved]

/-- A request passes the gate wherever requests are forwarded. -/
theorem sends_requesting {id : ConnectionId} (hforwards : control.ForwardsRequests config id.key)
    (address : RemoteAddress) :
    control.sends (control.forces id.key.pid)
      ((start id address .client).sampled config (Session.requesting id.key)) = true := by
  have hself : control.selfPid ≠ some (start id address .client).id.key.pid := hforwards.1
  have hfresh : ((start id address .client).sampled config
      (Session.requesting id.key)).isDisabled = false := by
    simp only [isDisabled, disabledUpTo_sampled]
    rfl
  -- A forced process passes without a look at the masks.
  rcases hforwards.2 with hforced | ⟨hadmitted, hhttp, hmask⟩
  · simp [Control.sends, hself, hfresh, Control.forces_of_force? hforced]
  · rcases sampled_requesting hhttp id.key id address with ⟨hprotocol, hrole⟩
    have hknown : Protocol.isKnown .http = true := rfl
    have hforce := Control.forces_of_force? hadmitted
    simp [Control.sends, hself, hfresh, hforce, hprotocol, hrole, hknown, hmask]

/-- A request yields a chunk wherever requests are forwarded. -/
theorem chunks_requested (hcheck : config.check = .ok ()) {id : ConnectionId}
    (hforwards : control.ForwardsRequests config id.key) {address : RemoteAddress}
    (htraceable : address.isTraceable = true) :
    Event.chunks ((Session.requested id address).reaction config control).events ≠ [] := by
  have htakes : (start id address .client).takes (Session.requesting id.key) = true := by
    simp [takes, start, Session.requesting, htraceable]
  have hmoving : (Session.requested id address).connection.moving? config
      (Session.requested id address).incident = some _ := moving?_of_takes htakes
  have hsent : (Session.requested id address).isSent config control = true := by
    rw [Encounter.isSent_of_moving hmoving, id_sampled]
    exact sends_requesting hforwards address
  exact Encounter.chunks_reaction_ne_nil hmoving hcheck rfl rfl hsent

end Connection

namespace Tracker

variable {t : Tracker} {key : ConnectionKey} {c : Connection}

/-- A client that connects under a tracked key begins a new incarnation. -/
theorem encounter?_connect (hadmits : t.admits key.pid = true)
    (hfound : t.registry.find? key = some c) :
    t.encounter? (Session.connect key) =
      some ⟨.start ⟨key, 1, t.registry.nextGeneration⟩ (Session.connecting key).address .client,
        true, .opened (Session.connecting key)⟩ := by
  simp [encounter?, Session.connect, Session.connecting, hadmits, hfound, Registry.install_snd,
    Role.ofHint]

theorem encounter?_request (hadmits : t.admits key.pid = true)
    (hfound : t.registry.find? key = some c) :
    t.encounter? (Session.request key) = some ⟨c, false, .data (Session.requesting key)⟩ := by
  simp [encounter?, sighting?, Session.request, Session.requesting, hadmits, hfound]

end Tracker

/-- The request of a client that connects anew under a tracked key is forwarded, of a generation of
its own. -/
theorem Chronicle.Valid.chunk_of_reconnect {h : Chronicle} (hv : h.Valid)
    (hcheck : h.tracker.config.check = .ok ()) {key : ConnectionKey} {c : Connection}
    (hfound : h.tracker.registry.find? key = some c)
    (hforwards : h.tracker.control.ForwardsRequests h.tracker.config key) :
    ([Session.connect key, Session.request key].foldl Chronicle.next h).begun = h.begun + 1 ∧
      ∃ chunk ∈ Event.chunks (h.tracker.events [Session.connect key, Session.request key]),
        chunk.id.key = key ∧ chunk.id.generation = h.tracker.registry.nextGeneration := by
  have hadmits : h.tracker.admits key.pid = true := by
    rcases hforwards.2 with hforced | ⟨hadmitted, _⟩
    · simp [Tracker.admits, hforced]
    · simp [Tracker.admits, hadmitted]
  have hconnect := Tracker.encounter?_connect hadmits hfound
  have hnext : (h.next (Session.connect key)).Valid := hv.next _
  have htracked : (h.next (Session.connect key)).tracker.registry.find? key = some (.start
      ⟨key, 1, h.tracker.registry.nextGeneration⟩ (Session.connecting key).address .client) := by
    rw [tracker_next]
    exact (hv.meets hconnect).find?_key
  have hstill : (h.next (Session.connect key)).tracker.admits key.pid = true := by
    rw [tracker_next]
    exact hadmits
  have hrequest := Tracker.encounter?_request hstill htracked
  have hevents := (hnext.meets hrequest).events_eq
  have hchunks : Event.chunks ((h.tracker.next (Session.connect key)).respond
      (Session.request key)).events ≠ [] := by
    rw [tracker_next] at hevents
    rw [hevents]
    exact Connection.chunks_requested hcheck hforwards rfl
  constructor
  · -- Only the first of the two steps begins an incarnation.
    show ((h.next (Session.connect key)).next (Session.request key)).begun = h.begun + 1
    rw [next_of_encounter hrequest, next_of_encounter hconnect]
    rfl
  · rcases List.exists_mem_of_ne_nil _ hchunks with ⟨chunk, hchunk⟩
    have hid : chunk.id = ⟨key, 1, h.tracker.registry.nextGeneration⟩ := by
      rw [tracker_next] at hevents
      rw [hevents] at hchunk
      exact Connection.id_of_mem_chunks_undergo _ hchunk
    refine ⟨chunk, ?_, ?_, ?_⟩
    · have hsplit := Tracker.events_append h.tracker [Session.connect key] [Session.request key]
      have hlast : (h.tracker.run [Session.connect key]).events [Session.request key] =
          ((h.tracker.next (Session.connect key)).respond (Session.request key)).events :=
        Tracker.events_singleton _ _
      rw [List.singleton_append] at hsplit
      rw [hsplit, hlast, Event.chunks_append]
      exact List.mem_append_right _ hchunk
    · simp [hid]
    · simp [hid]

namespace Tracker

variable {config : Config} {control : Control} {t : Tracker}

/-- An order that names the next generation is broken by the next client that connects. -/
theorem not_withholds_of_unissued (h : make config control = .ok t) {first : List Step}
    {key : ConnectionKey} {n : UInt64}
    (happlied : ((t.run first).respond (.disable key n)).reply = .applied true)
    (hforwards : control.ForwardsRequests config key) (hunissued : t.issued first < n.toNat) :
    t.issued (first ++ [.disable key n] ++ [Session.connect key, Session.request key]) <
        UInt64.size ∧
      ¬(t.run (first ++ [.disable key n])).Withholds key n
        [Session.connect key, Session.request key] := by
  have hordered := valid_chronicle h (first ++ [.disable key n])
  rcases make_eq_ok h with ⟨hmade, hcheck, -⟩
  rcases find?_of_applied happlied with ⟨c, hfound, htracked⟩
  have hrun : t.run (first ++ [.disable key n]) = (t.run first).next (.disable key n) :=
    run_append t first [.disable key n]
  rw [← tracker_chronicle] at hfound
  have hbegun := ((valid_chronicle h first).next_order hfound n).1
  rw [← chronicle_concat, begun_chronicle h first] at hbegun
  rw [← hrun, ← tracker_chronicle] at htracked
  have hcheck' : (t.chronicle (first ++ [.disable key n])).tracker.config.check = .ok () := by
    simpa [hmade] using hcheck
  have hforwards' : (t.chronicle (first ++ [.disable key n])).tracker.control.ForwardsRequests
      (t.chronicle (first ++ [.disable key n])).tracker.config key := by
    simpa [hmade] using hforwards
  rcases hordered.chunk_of_reconnect hcheck' htracked hforwards' with
    ⟨hlater, chunk, hchunk, hkey, hgeneration⟩
  have hword : n.toNat < UInt64.size := n.toNat_lt
  constructor
  · rw [← begun_chronicle h, chronicle_append, hlater, hbegun]
    omega
  · intro hkept
    rw [tracker_chronicle] at hchunk
    have hlt := hkept chunk hchunk hkey
    -- The next generation is the one after those that were issued.
    have hnext : chunk.id.generation.toNat = t.issued first + 1 := by
      rw [hgeneration, hordered.next_generation, hbegun]
      exact UInt64.toNat_ofNat_of_lt' (by omega)
    rw [UInt64.lt_iff_toNat_lt] at hlt
    omega

/-- How far an order reaches. Within a given run, it is kept exactly if the incarnations that begin
later keep it on their own account. Over all runs, it is kept exactly if it names no generation that
is still to be issued, unless the requests of the key are not forwarded anyway. -/
theorem withholds_exactly (h : make config control = .ok t) {first : List Step}
    {key : ConnectionKey} {n : UInt64}
    (happlied : ((t.run first).respond (.disable key n)).reply = .applied true) :
    (∀ rest, (t.run (first ++ [.disable key n])).Withholds key n rest ↔
      ∀ e ∈ (t.chronicle (first ++ [.disable key n] ++ rest)).entries,
        t.issued first ≤ e.number → e.Withholds key n) ∧
    (n.toNat ≤ t.issued first → ∀ rest,
      t.issued (first ++ [.disable key n] ++ rest) < UInt64.size →
        (t.run (first ++ [.disable key n])).Withholds key n rest) ∧
    (t.issued first < n.toNat → control.ForwardsRequests config key → ∃ rest,
      t.issued (first ++ [.disable key n] ++ rest) < UInt64.size ∧
        ¬(t.run (first ++ [.disable key n])).Withholds key n rest) := by
  refine ⟨withholds_iff h happlied, ?_, ?_⟩
  · intro hissued rest hfew
    exact withholds_of_issued h happlied hissued hfew
  · intro hunissued hforwards
    exact ⟨_, not_withholds_of_unissued h happlied hforwards hunissued⟩

/-- After the first client has connected, an order for its generation is kept for good, and one for
the first five generations is not. -/
theorem withholds_exactly_connected :
    ((standard.run [Session.connect ⟨7, 3⟩]).respond (.disable ⟨7, 3⟩ 1)).reply = .applied true ∧
    ((standard.run [Session.connect ⟨7, 3⟩]).respond (.disable ⟨7, 3⟩ 5)).reply = .applied true ∧
    (∀ rest, standard.issued ([Session.connect ⟨7, 3⟩] ++ [.disable ⟨7, 3⟩ 1] ++ rest) <
        UInt64.size →
      (standard.run ([Session.connect ⟨7, 3⟩] ++ [.disable ⟨7, 3⟩ 1])).Withholds ⟨7, 3⟩ 1 rest) ∧
    ∃ rest, standard.issued ([Session.connect ⟨7, 3⟩] ++ [.disable ⟨7, 3⟩ 5] ++ rest) <
        UInt64.size ∧
      ¬(standard.run ([Session.connect ⟨7, 3⟩] ++ [.disable ⟨7, 3⟩ 5])).Withholds ⟨7, 3⟩ 5 rest := by
  have hone : ((standard.run [Session.connect ⟨7, 3⟩]).respond (.disable ⟨7, 3⟩ 1)).reply =
      .applied true := by decide +kernel
  have hfive : ((standard.run [Session.connect ⟨7, 3⟩]).respond (.disable ⟨7, 3⟩ 5)).reply =
      .applied true := by decide +kernel
  have hforwards : Control.ForwardsRequests .everything .standard ⟨7, 3⟩ := by
    refine ⟨?_, Or.inr ⟨rfl, ?_, ?_⟩⟩ <;> decide +kernel
  refine ⟨hone, hfive, ?_, ?_⟩
  · exact (withholds_exactly make_standard hone).2.1 (by decide +kernel)
  · exact (withholds_exactly make_standard hfive).2.2 (by decide +kernel) hforwards

/-- The client of the second generation is heard, although generations up to the fifth were to be
withheld. -/
theorem order_lost_by_reconnect :
    make .standard .everything = .ok standard ∧
    ((standard.run [Session.connect ⟨7, 3⟩]).respond (.disable ⟨7, 3⟩ 5)).reply = .applied true ∧
    ¬(standard.run ([Session.connect ⟨7, 3⟩] ++ [.disable ⟨7, 3⟩ 5])).Withholds ⟨7, 3⟩ 5
      [Session.connect ⟨7, 3⟩, Session.request ⟨7, 3⟩] := by
  refine ⟨make_standard, ?_, ?_⟩ <;> decide +kernel

end Tracker

end FlowTrace
