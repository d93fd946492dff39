import FlowTrace.Proofs.Checked.Traffic
import FlowTrace.Proofs.Latching
import FlowTrace.Proofs.Ledger
import FlowTrace.Proofs.SplitRequest

/-!
# Checked runs — no step stops a tracker

The steps of a tracker add up slots, samples and positions, look up the mask of a protocol, and
split the batch of a sweep. `IsBounded` says under which bounds a step does not stop, and that these
bounds hold all along a run is a matter of counting: a step takes one slot and classifies one sample
at most, so none of these counts is larger than the number of steps so far.
-/

namespace FlowTrace

namespace Checked

/-! ## Slots -/

section Slots

variable (r : Registry)

/-- The count is raised before it is compared with the capacity. -/
def takeSlot? : Checked (Option Registry) := do
  let slots ← add r.slots 1
  return if r.slots < r.capacity then some { r with slots } else none

def makeRoom? : Checked (Option Registry.Room) := do
  match ← takeSlot? r, r.policy with
  | some r, _ => return some ⟨r, false⟩
  | none, .reject => return none
  | none, .evictOldest =>
    match Registry.oldest r.entries with
    | none => return none
    | some c => do
      let freed? ← takeSlot? (r.removeIncarnation c.id).1
      return freed?.map fun r => ⟨r, true⟩

def create? (key : ConnectionKey) (startTicks : UInt64) (address : RemoteAddress) (role : Role) :
    Checked (Option Registry.Creation) := do
  let room? ← makeRoom? r
  return room?.map fun room =>
    let (registry, connection) := room.registry.install key startTicks address role
    { registry, connection, evicted := room.evicted }

/-- Removes several incarnations, and counts on from `removed` those that were there. -/
def removeAll (r : Registry) (removed : Nat) :
    List ConnectionId → Checked (Registry × List Registry.Removal × Nat)
  | [] => return (r, [], removed)
  | id :: ids => do
    let (r, first) := r.removeIncarnation id
    let removed ← if first = .removed then add removed 1 else pure removed
    let (r, others, removed) ← removeAll r removed ids
    return (r, first :: others, removed)

variable {r}

theorem takeSlot?_eq (h : r.slots < maxWord) : takeSlot? r = pure r.takeSlot? := by
  have hslots : add r.slots 1 = pure (r.slots + 1) := add_eq h
  rw [takeSlot?, hslots]
  rfl

theorem makeRoom?_eq (hsound : r.IsSound) (h : r.slots < maxWord) :
    makeRoom? r = pure r.makeRoom? := by
  simp only [makeRoom?, takeSlot?_eq h, pure_bind, Registry.makeRoom?]
  cases r.takeSlot? with
  | some r' => rfl
  | none =>
    cases r.policy with
    | reject => rfl
    | evictOldest =>
      cases holdest : Registry.oldest r.entries with
      | none => simp
      | some c =>
        -- Who leaves frees a slot.
        have hfreed := Registry.slots_removeIncarnation hsound c.id
        have hslots : (r.removeIncarnation c.id).1.slots < maxWord := by omega
        simp only [takeSlot?_eq hslots, pure_bind]
        cases htaken : (r.removeIncarnation c.id).1.takeSlot? <;> simp [htaken]

theorem create?_eq (hsound : r.IsSound) (h : r.slots < maxWord) (key : ConnectionKey)
    (startTicks : UInt64) (address : RemoteAddress) (role : Role) :
    create? r key startTicks address role = pure (r.create? key startTicks address role) := by
  rw [create?, makeRoom?_eq hsound h]
  rfl

/-- No more connections are removed than there are slots. -/
theorem removeAll_eq (hsound : r.IsSound) {removed : Nat} (h : removed + r.slots ≤ maxWord)
    (ids : List ConnectionId) :
    removeAll r removed ids =
      pure ((r.removeAll ids).1, (r.removeAll ids).2,
        removed + (r.removeAll ids).2.count .removed) := by
  induction ids generalizing r removed with
  | nil => rfl
  | cons id ids ih =>
    have hslots := Registry.slots_removeIncarnation hsound id
    simp only [removeAll, Registry.removeAll]
    by_cases hfirst : (r.removeIncarnation id).2 = .removed
    · -- A slot is free for each one that is counted.
      rw [if_pos hfirst] at hslots
      have hcount : add removed 1 = pure (removed + 1) := add_eq (by omega)
      have hbound : removed + 1 + (r.removeIncarnation id).1.slots ≤ maxWord := by omega
      have hrest := ih (hsound.removeIncarnation id) hbound
      simp [hfirst, hcount, hrest, Nat.add_assoc, Nat.add_comm]
    · rw [if_neg hfirst] at hslots
      have hbound : removed + (r.removeIncarnation id).1.slots ≤ maxWord := by omega
      have hrest := ih (hsound.removeIncarnation id) hbound
      simp [hfirst, hrest]

end Slots

/-! ## Steps -/

variable (t : Tracker)

def admitting (pid : UInt32) (go : (force : Bool) → Checked Outcome) : Checked Outcome :=
  match t.control.target.force? pid with
  | some force => go force
  | none => return { registry := t.registry, tally := { unmatchedTarget := 1 } }

def creating (key : ConnectionKey) (startTicks : UInt64) (address : RemoteAddress) (role : Role)
    (go : Registry → Connection → Checked Outcome) : Checked Outcome := do
  match ← create? t.registry key startTicks address role with
  | some creation =>
    let outcome ← go creation.registry creation.connection
    let created : Counters :=
      { connectionsCreated := 1, capacityEvicted := if creation.evicted then 1 else 0 }
    return { outcome with tally := created + outcome.tally }
  | none => return { registry := t.registry, tally := { capacityRejected := 1 } }

def reacting (key : ConnectionKey) (startTicks : UInt64)
    (react : Connection → Checked Reaction) : Checked Outcome :=
  let settle (r : Registry) (c : Connection) : Checked Outcome := do
    let reaction ← react c
    return {
      registry := r.put key reaction.connection
      events := reaction.events
      tally := reaction.tally }
  match t.registry.find? key with
  | some c => settle t.registry c
  | none => creating t key startTicks .unknown .unknown settle

def opened (o : Opened) : Checked Outcome :=
  admitting t o.key.pid fun _ =>
    match t.registry.find? o.key, o.hint with
    | some _, .implicit => return { registry := t.registry }
    | some _, _ =>
      let (r, c) := t.registry.install o.key o.startTicks o.address (Role.ofHint o.hint)
      return Tracker.announce o r c
    | none, _ =>
      creating t o.key o.startTicks o.address (Role.ofHint o.hint) fun r c =>
        return Tracker.announce o r c

def transferred (o : Transfer) : Checked Outcome :=
  if o.byteCount = 0 then return t.nothingMoved
  else
    admitting t o.key.pid fun force =>
      reacting t o.key o.startTicks fun c => transfer c t.config t.control force o

def fileTransferred (o : FileTransfer) : Checked Outcome :=
  if o.byteCount = 0 then return t.nothingMoved
  else
    admitting t o.key.pid fun force =>
      reacting t o.key o.startTicks fun c => transferFile c t.config t.control force o

def tlsDetected (o : TlsDetected) : Checked Outcome :=
  admitting t o.key.pid fun _ =>
    reacting t o.key o.startTicks fun c => return ⟨{ c with ssl := true }, [], {}⟩

def swept (ids : List ConnectionId) : Checked Outcome := do
  let (now, later) ← splitAt ids (min ids.length t.config.cleanupBatchSize)
  let (r, removals, removed) ← removeAll t.registry 0 now
  return {
    registry := r
    tally :=
      { cleanupRemoved := (removals.count .removed).toUInt64
        cleanupStale := (removals.count .stale).toUInt64
        lookupMiss := (removals.count .missing).toUInt64
        cleanupDeferred := later.length.toUInt64 }
    reply := .removed removed }

def observed : Observation → Checked Outcome
  | .opened o => Tracker.observed.counted <$> opened t o
  | .data o => Tracker.observed.counted <$> transferred t o
  | .sendfile o => Tracker.observed.counted <$> fileTransferred t o
  -- A closing adds nothing up, and the slot that it gives back stops at zero.
  | .closed o => return Tracker.observed.counted (t.closed o)
  | .tlsDetected o => Tracker.observed.counted <$> tlsDetected t o
  | .cleanup ids => swept t ids

def respond : Step → Checked Outcome
  | .observe o => observed t o
  | .disable key generation => return t.disabled key generation
  | .look key => return { registry := t.registry, reply := .view (t.connection? key) }

/-- The answers of a run. -/
def outcomes (t : Tracker) : List Step → Checked (List Outcome)
  | [] => return []
  | s :: steps => do
    let outcome ← respond t s
    let others ← outcomes (t.advance outcome) steps
    return outcome :: others

/-- Under these bounds a step does not stop. -/
structure IsBounded (s : Step) : Prop where
  sound : t.registry.IsSound
  slots_lt : t.registry.slots < maxWord
  workable : Workable t.config.chunkLimits
  hasRoom : ∀ e, t.encounter? s = some e → e.connection.HasRoom e.incident

section Steps

variable {t}

theorem admitting_eq {pid : UInt32} {go : Bool → Outcome} {go' : Bool → Checked Outcome}
    (h : ∀ force, t.control.target.force? pid = some force → go' force = pure (go force)) :
    admitting t pid go' = pure (t.admitting pid go) := by
  unfold admitting Tracker.admitting
  cases hforce : t.control.target.force? pid with
  | some force => exact h force hforce
  | none => rfl

theorem creating_eq (hsound : t.registry.IsSound) (hslots : t.registry.slots < maxWord)
    {key : ConnectionKey} {startTicks : UInt64} {address : RemoteAddress} {role : Role}
    {go : Registry → Connection → Outcome} {go' : Registry → Connection → Checked Outcome}
    (h : ∀ creation, t.registry.create? key startTicks address role = some creation →
      go' creation.registry creation.connection = pure (go creation.registry creation.connection)) :
    creating t key startTicks address role go' =
      pure (t.creating key startTicks address role go) := by
  simp only [creating, create?_eq hsound hslots, pure_bind, Tracker.creating]
  cases hcreate : t.registry.create? key startTicks address role with
  | none => rfl
  | some creation =>
    simp only [h creation hcreate, pure_bind]

/-- A connection that is seen reacts without a stop if the reaction does. -/
theorem reacting_eq (hsound : t.registry.IsSound) (hslots : t.registry.slots < maxWord)
    {key : ConnectionKey} {startTicks : UInt64} {react : Connection → Reaction}
    {react' : Connection → Checked Reaction}
    (h : ∀ c, t.seenOn? key startTicks = some c → react' c = pure (react c)) :
    reacting t key startTicks react' = pure (t.reacting key startTicks react) := by
  unfold reacting Tracker.reacting
  unfold Tracker.seenOn? at h
  cases hfind : t.registry.find? key with
  | some c =>
    simp only [hfind] at h
    simp only [h c rfl, pure_bind]
  | none =>
    simp only [hfind] at h
    refine creating_eq hsound hslots ?_
    intro creation hcreate
    simp only [h creation.connection (by rw [hcreate]; rfl), pure_bind]

theorem opened_eq (hsound : t.registry.IsSound) (hslots : t.registry.slots < maxWord) (o : Opened) :
    opened t o = pure (t.opened o) := by
  refine admitting_eq ?_
  intro force _
  cases t.registry.find? o.key with
  | none => exact creating_eq hsound hslots fun _ _ => rfl
  | some c => cases o.hint <;> rfl

/-- The connection that a call is seen on is that of the encounter. -/
theorem IsBounded.hasRoom_of_seen {s : Step} (h : IsBounded t s) {key : ConnectionKey}
    {startTicks : UInt64} {i : Incident} (hencounter : t.encounter? s = t.sighting? key startTicks i)
    {c : Connection} (hseen : t.seenOn? key startTicks = some c) : c.HasRoom i := by
  rw [← Tracker.map_connection_sighting? key startTicks i] at hseen
  rcases Option.map_eq_some_iff.1 hseen with ⟨e, he, rfl⟩
  have hroom := h.hasRoom e (hencounter.trans he)
  rwa [Tracker.incident_of_sighting? he] at hroom

/-- A call of either kind. -/
theorem moving_eq {s : Step} (h : IsBounded t s) {key : ConnectionKey} {startTicks : UInt64}
    {i : Incident} {count : Nat}
    (hencounter : t.encounter? s =
      if count ≠ 0 ∧ t.admits key.pid then t.sighting? key startTicks i else none)
    {react : Bool → Connection → Reaction} {react' : Bool → Connection → Checked Reaction}
    (hreact : ∀ force c, c.HasRoom i → react' force c = pure (react force c)) :
    (if count = 0 then pure t.nothingMoved
      else admitting t key.pid fun force => reacting t key startTicks (react' force)) =
      pure (if count = 0 then t.nothingMoved
        else t.admitting key.pid fun force => t.reacting key startTicks (react force)) := by
  by_cases hcount : count = 0
  · rw [if_pos hcount, if_pos hcount]
  · rw [if_neg hcount, if_neg hcount]
    refine admitting_eq ?_
    intro force hforce
    refine reacting_eq h.sound h.slots_lt ?_
    intro c hseen
    have hadmits : t.admits key.pid = true := by simp [Tracker.admits, hforce]
    rw [if_pos ⟨hcount, hadmits⟩] at hencounter
    exact hreact force c (h.hasRoom_of_seen hencounter hseen)

theorem swept_eq (hsound : t.registry.IsSound) (hslots : t.registry.slots < maxWord)
    (ids : List ConnectionId) : swept t ids = pure (t.swept ids) := by
  have hremoved : 0 + t.registry.slots ≤ maxWord := by omega
  simp only [swept, splitAt_clamp, pure_bind, removeAll_eq hsound hremoved, Nat.zero_add]
  rfl

/-- A step that is bounded answers, and its answer is the one that is defined without the checks. -/
theorem respond_eq {s : Step} (h : IsBounded t s) : respond t s = pure (t.respond s) := by
  cases s with
  | observe o =>
    cases o with
    | opened o =>
      rw [respond, observed, opened_eq h.sound h.slots_lt]
      rfl
    | data o =>
      have hmoving : transferred t o = pure (t.transferred o) :=
        moving_eq h rfl fun force c hroom => transfer_eq t.control force h.workable hroom
      rw [respond, observed, hmoving]
      rfl
    | sendfile o =>
      have hmoving : fileTransferred t o = pure (t.fileTransferred o) :=
        moving_eq h rfl fun force c hroom => transferFile_eq t.control force h.workable hroom
      rw [respond, observed, hmoving]
      rfl
    | closed o => rfl
    | tlsDetected o =>
      have hreacting : tlsDetected t o = pure (t.tlsDetected o) :=
        admitting_eq fun _ _ => reacting_eq h.sound h.slots_lt fun _ _ => rfl
      rw [respond, observed, hreacting]
      rfl
    | cleanup ids => exact swept_eq h.sound h.slots_lt ids
  | disable key generation => rfl
  | look key => rfl

theorem outcomes_eq {steps : List Step}
    (h : ∀ first s rest, steps = first ++ s :: rest → IsBounded (t.run first) s) :
    outcomes t steps = pure (t.outcomes steps) := by
  induction steps generalizing t with
  | nil => rfl
  | cons s steps ih =>
    have hfirst : IsBounded t s := h [] s steps rfl
    have hrest : outcomes (t.next s) steps = pure ((t.next s).outcomes steps) := by
      apply ih
      intro first s' rest hsteps
      exact h (s :: first) s' rest (congrArg (s :: ·) hsteps)
    rw [outcomes, respond_eq hfirst, pure_bind]
    exact congrArg (· >>= fun others => pure (t.respond s :: others)) hrest

end Steps

end Checked

/-! ## Counts along a run -/

namespace Connection

variable (c : Connection) (config : Config) (control : Control)

theorem counts_sampled (o : Transfer) :
    (c.sampled config o).sampleCount ≤ c.sampleCount + 1 ∧
      (c.sampled config o).matchCount ≤ c.matchCount + 1 := by
  simp only [sampled]
  split
  · next sample _ =>
    constructor
    · rcases classify_eq { c with carry := c.carry.clearPrepend } ⟨config.enabledProtocols⟩
        o.direction sample with ⟨_, _, _, hclassify⟩
      rw [hclassify]
    · rw [matchCount_classify]
      exact Nat.add_le_add_left (by split <;> decide) _
  · exact ⟨Nat.le_succ _, Nat.le_succ _⟩

/-- An incident classifies one sample at most. -/
theorem counts_undergo (i : Incident) :
    (c.undergo config control i).connection.sampleCount ≤ c.sampleCount + 1 ∧
      (c.undergo config control i).connection.matchCount ≤ c.matchCount + 1 := by
  cases hmoving : c.moving? config i with
  | none =>
    rcases undergo_of_not_moving control hmoving with h | ⟨_, h⟩ | ⟨_, _, h⟩ <;> rw [h] <;>
      exact ⟨Nat.le_succ _, Nat.le_succ _⟩
  | some p =>
    rcases p with ⟨c', m⟩
    rw [(undergo_of_moving control hmoving).1, sampleCount_account, matchCount_account]
    rcases moving?_cases hmoving with ⟨o, _, _, rfl, _⟩ | ⟨_, _, _, rfl, _⟩
    · exact counts_sampled c config o
    · exact ⟨Nat.le_succ _, Nat.le_succ _⟩

end Connection

theorem Life.counts_invariant {config : Config} {control : Control} :
    Life.Invariant config control fun past c =>
      c.sampleCount ≤ past.length ∧ c.matchCount ≤ past.length := by
  constructor
  · intro id address role
    exact ⟨Nat.le_refl _, Nat.le_refl _⟩
  · intro past e _ _ hpast
    have hcounts := e.connection.counts_undergo config control e.incident
    rw [List.length_append, List.length_singleton]
    exact ⟨hcounts.1.trans (Nat.succ_le_succ hpast.1), hcounts.2.trans (Nat.succ_le_succ hpast.2)⟩

/-- Some of the entries have moved no more than all of them. -/
theorem Entry.moved_filter_le (d : Direction) (p : Entry → Bool) (es : List Entry) :
    moved d (es.filter p) ≤ moved d es := by
  induction es with
  | nil => exact Nat.le_refl _
  | cons e es ih =>
    rw [List.filter_cons]
    split
    · exact Nat.add_le_add_left ih _
    · exact ih.trans (Nat.le_add_left _ _)

/-- A step takes one slot at most. -/
theorem Registry.Revises.slots_le {r r' : Registry} {key : ConnectionKey} {arrives replaces : Bool}
    {tally : Counters} (h : r.Revises key arrives replaces r' tally) (hsound : r.IsSound) :
    r'.slots ≤ r.slots + 1 := by
  cases h with
  | keep | refuse | put | replace => exact Nat.le_succ _
  | begin c huntracked hroom =>
    have hslots := slots_makeRoom? hsound hroom
    exact Nat.le_of_add_right_le (Nat.le_of_eq hslots)
  | drop htracked => exact (Nat.sub_le _ _).trans (Nat.le_succ _)

namespace Tracker

variable {config : Config} {control : Control} {t : Tracker}

theorem length_entries_le (t : Tracker) (steps : List Step) :
    (t.chronicle steps).entries.length ≤ steps.length := by
  induction steps using List.reverseRecOn with
  | nil => exact Nat.le_refl _
  | append_singleton steps s ih =>
    rw [chronicle_concat, List.length_append, List.length_singleton]
    cases hencounter : (t.chronicle steps).tracker.encounter? s with
    | none =>
      rw [Chronicle.next_of_none hencounter]
      exact ih.trans (Nat.le_succ _)
    | some e =>
      rw [Chronicle.next_of_encounter hencounter]
      simpa using ih

theorem slots_respond_le (hsound : t.registry.IsSound) (s : Step) :
    (t.respond s).registry.slots ≤ t.registry.slots + 1 := by
  rcases registry_respond_cases t s with ⟨key, hrevises⟩ | ⟨ids, hswept, -⟩
  · exact hrevises.slots_le hsound
  · have hslots := Registry.slots_removeAll hsound ids
    rw [hswept]
    omega

theorem slots_run_le (h : make config control = .ok t) (steps : List Step) :
    (t.run steps).registry.slots ≤ steps.length := by
  induction steps using List.reverseRecOn with
  | nil =>
    rcases make_eq_ok h with ⟨rfl, -, -⟩
    exact Nat.le_refl _
  | append_singleton steps s ih =>
    rw [run_append, List.length_append, List.length_singleton]
    exact (slots_respond_le (sound_run h steps) s).trans (Nat.succ_le_succ ih)

/-- The bytes that an encounter adds are among those that its incarnation moves in the whole run. -/
theorem moved_encounter_le (t : Tracker) (first rest : List Step) {s : Step} {e : Encounter}
    (hsome : (t.chronicle first).tracker.encounter? s = some e) (d : Direction) :
    Entry.moved d ((t.chronicle first).of ((t.chronicle first).entry s e).number) +
        e.connection.adds d e.incident ≤
      Entry.moved d ((t.chronicle (first ++ s :: rest)).of
        ((t.chronicle first).entry s e).number) := by
  rcases exists_of_append t (first ++ [s]) rest ((t.chronicle first).entry s e).number with
    ⟨later, hlater⟩
  have hnext := Chronicle.of_next hsome ((t.chronicle first).entry s e).number
  rw [if_pos rfl, ← chronicle_concat] at hnext
  rw [List.append_assoc, List.singleton_append, hnext] at hlater
  rw [hlater, Entry.moved_append, Entry.moved_append]
  exact Nat.le_add_right _ _

/-- Connections that are met all along a short run have room, as long as no position leaves a
word. -/
theorem hasRoom_run (h : make config control = .ok t) {first rest : List Step} {s : Step}
    (hfew : (first ++ s :: rest).length < UInt64.size)
    (hword : ∀ n d, Entry.moved d ((t.chronicle (first ++ s :: rest)).of n) ≤ maxWord)
    {e : Encounter} (hencounter : (t.run first).encounter? s = some e) :
    e.connection.HasRoom e.incident := by
  have hsize : maxWord + 1 = UInt64.size := rfl
  have hsome : (t.chronicle first).tracker.encounter? s = some e := by
    rwa [tracker_chronicle]
  have hlife := (valid_chronicle h first).life_entry hsome
  -- An incarnation has no more entries than the run has steps.
  have hpast : ((t.chronicle first).of ((t.chronicle first).entry s e).number).length ≤
      first.length := (List.length_filter_le _ _).trans (length_entries_le t first)
  have hcounts : e.connection.sampleCount ≤ _ ∧ e.connection.matchCount ≤ _ :=
    Life.counts_invariant.of_met hlife
  have hlength : first.length + 1 ≤ (first ++ s :: rest).length := by simp
  refine ⟨by omega, by omega, ?_⟩
  intro d
  have hposition := (Life.position_invariant d).of_met hlife
  have hmoved := moved_encounter_le t first rest hsome d
  calc
    e.connection.position d + e.connection.adds d e.incident ≤
        Entry.moved d ((t.chronicle first).of ((t.chronicle first).entry s e).number) +
          e.connection.adds d e.incident :=
      Nat.add_le_add_right (hposition.le.trans (Nat.min_le_right _ _)) _
    _ ≤ maxWord := hmoved.trans (hword _ d)

theorem isBounded_run (h : make config control = .ok t)
    (hbounds : ∀ bound ∈ config.bounds, bound.2 ≤ maxWord) {first rest : List Step} {s : Step}
    (hfew : (first ++ s :: rest).length < UInt64.size)
    (hword : ∀ n d, Entry.moved d ((t.chronicle (first ++ s :: rest)).of n) ≤ maxWord) :
    Checked.IsBounded (t.run first) s := by
  have hsize : maxWord + 1 = UInt64.size := rfl
  have hlength : first.length + 1 ≤ (first ++ s :: rest).length := by simp
  have hslots := slots_run_le h first
  rcases make_eq_ok h with ⟨ht, hcheck, -⟩
  have hconfig : (t.run first).config = config := by simp [ht]
  have hworkable : Checked.Workable config.chunkLimits :=
    ⟨Config.bound_ne_zero hcheck .maxChunkSize (by simp [Config.bounds]),
      Config.bound_ne_zero hcheck .maxChunks (by simp [Config.bounds]),
      hbounds (.maxChunks, config.chunkLimits.maxChunks) (by simp [Config.bounds])⟩
  exact ⟨sound_run h first, by omega, hconfig ▸ hworkable, fun _ he => hasRoom_run h hfew hword he⟩

/-- Nothing stops a tracker. Every signature gives its answer on every payload and every carry, and
so does the classifier, whatever is enabled and whatever was found before. And a tracker whose
bounds are words answers every run of fewer steps than there are words in which no direction of an
incarnation moves more bytes than a word can count, however these bytes were staged. Each answer is
the one that is defined without the checks. -/
theorem never_stops :
    (∀ p b carry latched, Checked.recognise b carry latched p =
      pure (p.recognise? b carry, Checked.marked b carry latched p)) ∧
    (∀ e b carry latched, Checked.infer b carry e latched = pure (e.infer b carry latched)) ∧
    ∀ config control t, make config control = .ok t →
      (∀ bound ∈ config.bounds, bound.2 ≤ maxWord) →
      ∀ steps, steps.length < UInt64.size →
        (∀ n d, Entry.moved d ((t.chronicle steps).of n) ≤ maxWord) →
        Checked.outcomes t steps = pure (t.outcomes steps) := by
  refine ⟨?_, ?_, ?_⟩
  · intro p b carry latched
    exact Checked.recognise_eq b carry latched p
  · intro e b carry latched
    exact Checked.infer_eq b carry e latched
  · intro config control t h hbounds steps hfew hword
    apply Checked.outcomes_eq
    rintro first s rest rfl
    exact isBounded_run h hbounds hfew hword

end Tracker

namespace Session

/-- Calls of which more was staged than they have moved, or less, or nothing, and a sweep. -/
def ragged (key : ConnectionKey) : List Step :=
  [ connect key,
    .observe (.data
      { requesting key with payload := .segments [[], requestLine, []], byteCount := 100 }),
    .observe (.data { requesting key with payload := .segments [], byteCount := 5 }),
    .observe (.data { requesting key with payload := .flat [], byteCount := 200000 }),
    .observe (.data { requesting key with byteCount := 4 }),
    .observe (.cleanup [⟨key, 1, 1⟩, ⟨key, 1, 1⟩]) ]

end Session

namespace Tracker

/-- No count of a ragged session stops the tracker. -/
theorem never_stops_ragged :
    make .standard .everything = .ok standard ∧
      (∀ bound ∈ Config.standard.bounds, bound.2 ≤ maxWord) ∧
      (Session.ragged ⟨7, 3⟩).length < UInt64.size ∧
      (∀ n d, Entry.moved d ((standard.chronicle (Session.ragged ⟨7, 3⟩)).of n) ≤ maxWord) ∧
      Checked.outcomes standard (Session.ragged ⟨7, 3⟩) =
        pure (standard.outcomes (Session.ragged ⟨7, 3⟩)) := by
  have hbounds : ∀ bound ∈ Config.standard.bounds, bound.2 ≤ maxWord := by
    decide +kernel
  have hfew : (Session.ragged ⟨7, 3⟩).length < UInt64.size := by
    decide
  have hword : ∀ n d,
      Entry.moved d ((standard.chronicle (Session.ragged ⟨7, 3⟩)).of n) ≤ maxWord := by
    intro n d
    have hall : Entry.moved d (standard.chronicle (Session.ragged ⟨7, 3⟩)).entries ≤ maxWord := by
      cases d <;> decide +kernel
    exact (Entry.moved_filter_le d _ _).trans hall
  exact ⟨make_standard, hbounds, hfew, hword,
    never_stops.2.2 _ _ _ make_standard hbounds _ hfew hword⟩

end Tracker

end FlowTrace
