import FlowTrace.Proofs.EventProtocol
import FlowTrace.Proofs.Latching
import FlowTrace.Proofs.Occupancy

/-!
# Ledger — what the counters say of a run

The counters are bumped in many places, but they keep books on the run. What they say of connections
balances with those that are tracked, `Registry.Balances`. What they say of data and reports is what
the events of the run hold, `Counters.Books`. A latch is counted by the step that sets it, and no
incarnation loses what it has latched, so the latches that are counted are as many as the
incarnations whose protocol was recognised.

Words wrap around, so all of this is said of words.
-/

namespace FlowTrace

/-- The bytes that some chunks stand for but do not hold. -/
def DataChunk.truncated : List DataChunk → Nat
  | [] => 0
  | c :: cs => (c.size - c.payload.length) + truncated cs

@[simp] theorem DataChunk.truncated_append (cs ds : List DataChunk) :
    truncated (cs ++ ds) = truncated cs + truncated ds := by
  induction cs with
  | nil => exact (Nat.zero_add _).symm
  | cons c cs ih => simp [truncated, ih, Nat.add_assoc]

@[simp] theorem Event.reports_append (xs ys : List Event) :
    reports (xs ++ ys) = reports xs ++ reports ys :=
  List.filterMap_append

/-! ## Counting -/

namespace Counters

/-- What is counted of what a connection tells and shows. -/
def told (c : Counters) : Counters where
  protocolsLatched := c.protocolsLatched
  dataFiltered := c.dataFiltered
  dataChunks := c.dataChunks
  truncatedBytes := c.truncatedBytes
  unreportedBytes := c.unreportedBytes
  statsEvents := c.statsEvents

@[simp] theorem told_add (a b : Counters) : (a + b).told = a.told + b.told := by
  show (add a b).told = add a.told b.told
  simp [told, add]

/-- What is counted of data and reports is what some events hold. -/
structure Books (tally : Counters) (xs : List Event) : Prop where
  dataChunks_eq : tally.dataChunks = .ofNat (Event.chunks xs).length
  truncatedBytes_eq : tally.truncatedBytes = .ofNat (DataChunk.truncated (Event.chunks xs))
  statsEvents_eq : tally.statsEvents = .ofNat (Event.reports xs).length

namespace Books

variable {tally tally' : Counters} {xs ys : List Event}

theorem append (h : tally.Books xs) (h' : tally'.Books ys) : (tally + tally').Books (xs ++ ys) := by
  refine ⟨?_, ?_, ?_⟩
  · have hsum : (tally + tally').dataChunks = tally.dataChunks + tally'.dataChunks := rfl
    simp [hsum, h.dataChunks_eq, h'.dataChunks_eq, UInt64.ofNat_add]
  · have hsum : (tally + tally').truncatedBytes =
        tally.truncatedBytes + tally'.truncatedBytes := rfl
    simp [hsum, h.truncatedBytes_eq, h'.truncatedBytes_eq, UInt64.ofNat_add]
  · have hsum : (tally + tally').statsEvents = tally.statsEvents + tally'.statsEvents := rfl
    simp [hsum, h.statsEvents_eq, h'.statsEvents_eq, UInt64.ofNat_add]

/-- Only what is counted of data and reports matters. -/
theorem congr (h : tally.Books xs) (hsame : tally'.told = tally.told) : tally'.Books xs := by
  refine ⟨?_, ?_, ?_⟩
  · exact (congrArg dataChunks hsame).trans h.dataChunks_eq
  · exact (congrArg truncatedBytes hsame).trans h.truncatedBytes_eq
  · exact (congrArg statsEvents hsame).trans h.statsEvents_eq

end Books

end Counters

/-! ## One incident -/

namespace Connection

variable (c : Connection) (config : Config) (control : Control) (force : Bool)

theorem length_chunks (m : Movement) (position : Nat) (header : Option Header)
    (pieces : List Piece) : (c.chunks m position header pieces).length = pieces.length := by
  induction pieces generalizing position header with
  | nil => rfl
  | cons p ps ih => simp [chunks, ih]

theorem truncated_chunks (m : Movement) (position : Nat) (header : Option Header)
    (pieces : List Piece) :
    DataChunk.truncated (c.chunks m position header pieces) = Piece.truncated pieces := by
  induction pieces generalizing position header with
  | nil => rfl
  | cons p ps ih => simp [chunks, DataChunk.truncated, Piece.truncated, ih]

theorem books_forward (limits : ChunkLimits) (m : Movement) :
    (c.forward limits control force m).2.Books
      ((c.forward limits control force m).1.map .data) := by
  unfold forward
  split
  · refine ⟨?_, ?_, ?_⟩
    · simp [length_chunks]
    · simp [truncated_chunks]
    · simp [Continues.reports_map_data]
  · exact ⟨rfl, rfl, rfl⟩

theorem books_stats (reports : List StatsReport) :
    Counters.Books { statsEvents := reports.length.toUInt64 } (reports.map .stats) := by
  refine ⟨?_, ?_, ?_⟩
  · simp
  · simp [DataChunk.truncated]
  · simp [Continues.reports_map_stats]

theorem books_move (m : Movement) :
    (c.move config control force m).tally.Books (c.move config control force m).events :=
  (books_forward c control force config.chunkLimits m).append (books_stats _)

/-- What an incident counts of data and reports is what it tells. -/
theorem books_undergo (i : Incident) :
    (c.undergo config control i).tally.Books (c.undergo config control i).events := by
  cases i with
  | opened o =>
    simp only [undergo, announcement]
    split <;> exact ⟨rfl, rfl, rfl⟩
  | data o =>
    simp only [undergo, transfer]
    split
    · exact ⟨rfl, rfl, rfl⟩
    split
    · exact ⟨rfl, rfl, rfl⟩
    · -- The latch is counted on top of the movement.
      have hmove := books_move (c.sampled config o) config control (control.forces c.id.key.pid)
      have hlatch : ∀ n, Counters.Books { protocolsLatched := n } [] := fun _ => ⟨rfl, rfl, rfl⟩
      simpa using (hmove _).append (hlatch _)
  | sendfile o =>
    simp only [undergo, transferFile]
    split
    · exact ⟨rfl, rfl, rfl⟩
    · exact books_move c config control _ _
  | tlsDetected | disabled _ => exact ⟨rfl, rfl, rfl⟩
  | closed timestamp =>
    simp only [undergo, finish]
    split <;> exact ⟨rfl, rfl, rfl⟩

@[simp] theorem protocol_move (m : Movement) :
    (c.move config control force m).connection.protocol = c.protocol :=
  protocol_account c config.statsThreshold m

theorem protocolsLatched_move (m : Movement) :
    (c.move config control force m).tally.protocolsLatched = 0 := by
  simp only [move, forward]
  split <;> rfl

/-- Whether the incident finds the protocol out. -/
def latches (i : Incident) : Bool :=
  !c.protocol.isKnown && (c.undergo config control i).connection.protocol.isKnown

/-- A latch is counted when it is set. -/
theorem protocolsLatched_undergo (i : Incident) :
    (c.undergo config control i).tally.protocolsLatched =
      if c.latches config control i then 1 else 0 := by
  cases i with
  | data o =>
    simp only [latches, undergo, transfer]
    split
    · simp
    split
    · simp
    · -- The movement counts no latch, so it is counted once.
      have hadd : ∀ a b : Counters, (a + b).protocolsLatched =
          a.protocolsLatched + b.protocolsLatched := fun _ _ => rfl
      simp [hadd, protocolsLatched_move]
  | sendfile o =>
    simp only [latches, undergo, transferFile]
    split
    · simp
    · rw [protocolsLatched_move, protocol_move]
      simp
  | closed timestamp =>
    simp only [latches, undergo, finish]
    split <;> simp
  | opened _ | tlsDetected | disabled _ => simp [latches, undergo, disableUpTo]

/-- A latch stays. -/
theorem isKnown_undergo (h : c.protocol.isKnown = true) (i : Incident) :
    (c.undergo config control i).connection.protocol.isKnown = true := by
  rw [(Retains.undergo c config control i).protocol_eq h]
  exact h

end Connection

/-! ## The protocols of a run -/

/-- Whether an entry leaves its incarnation with a protocol that is known. -/
def Entry.isRecognised (config : Config) (control : Control) (e : Entry) : Bool :=
  (e.reaction config control).connection.protocol.isKnown

/-- The protocol of a live incarnation is known if one of its entries has left it so. -/
theorem Life.recognised_invariant {config : Config} {control : Control} :
    Life.Invariant config control fun past c =>
      c.protocol.isKnown = past.any (·.isRecognised config control) := by
  constructor
  · intro id address role
    rfl
  · intro past e hafter hclosing hpast
    have hstays : e.connection.protocol.isKnown = true →
        (e.reaction config control).connection.protocol.isKnown = true :=
      fun hknown => Connection.isKnown_undergo _ config control hknown _
    rw [List.any_append, ← hpast]
    cases hbefore : e.connection.protocol.isKnown with
    | true => simp [hstays hbefore]
    | false => simp [Entry.isRecognised]

namespace Chronicle

/-- The numbers of the incarnations whose protocol was recognised. -/
def recognised (h : Chronicle) : Finset Nat :=
  ((h.entries.filter (·.isRecognised h.tracker.config h.tracker.control)).map (·.number)).toFinset

theorem mem_recognised {h : Chronicle} {n : Nat} :
    n ∈ h.recognised ↔
      (h.of n).any (·.isRecognised h.tracker.config h.tracker.control) = true := by
  simp only [recognised, of, List.mem_toFinset, List.mem_map, List.mem_filter, List.any_eq_true,
    decide_eq_true_eq]
  constructor
  · rintro ⟨e, ⟨he, hrecognised⟩, rfl⟩
    exact ⟨e, ⟨he, rfl⟩, hrecognised⟩
  · rintro ⟨e, ⟨he, rfl⟩, hrecognised⟩
    exact ⟨e, ⟨he, hrecognised⟩, rfl⟩

variable {h : Chronicle} {s : Step} {e : Encounter}

/-- What was recognised of a tracked connection is still known of it. -/
theorem Valid.number_mem_recognised_of_tracked (hv : h.Valid) {key : ConnectionKey} {c : Connection}
    (hfound : h.tracker.registry.find? key = some c) :
    h.number key ∈ h.recognised ↔ c.protocol.isKnown = true := by
  have hlife := hv.live key c hfound
  rw [mem_recognised, Life.recognised_invariant.of_live hlife]

/-- The number of an encounter is among them if it meets a connection of a known protocol. -/
theorem Valid.number_mem_recognised (hv : h.Valid) (hsome : h.tracker.encounter? s = some e) :
    (h.entry s e).number ∈ h.recognised ↔ e.connection.protocol.isKnown = true := by
  have hmeets := hv.meets hsome
  rw [mem_recognised]
  cases hnew : e.isNew with
  | true =>
    -- Nothing is known of a connection that begins, and no entry has its number.
    have hnil : h.of (h.entry s e).number = [] := by
      simpa [entry, hnew] using hv.of_begun_eq_nil
    rcases (hmeets.birth hnew).1.exists_start with ⟨address, role, hstart⟩
    rw [hnil, hstart]
    simp [Connection.start, Protocol.isKnown]
  | false =>
    have hnumber : (h.entry s e).number = h.number e.key := by simp [entry, hnew]
    rw [hnumber, ← mem_recognised]
    exact hv.number_mem_recognised_of_tracked (hmeets.found hnew).2.1

theorem recognised_next (hsome : h.tracker.encounter? s = some e) :
    (h.next s).recognised =
      if (h.entry s e).isRecognised h.tracker.config h.tracker.control then
        insert (h.entry s e).number h.recognised
      else h.recognised := by
  have hsame : (h.tracker.next s).config = h.tracker.config ∧
      (h.tracker.next s).control = h.tracker.control := ⟨rfl, rfl⟩
  ext n
  simp only [recognised, next_of_encounter hsome, hsame, List.filter_append, List.map_append]
  cases hrecognised : (h.entry s e).isRecognised h.tracker.config h.tracker.control <;>
    simp [hrecognised]

/-- Each latch that is set is that of another incarnation. -/
theorem Valid.card_recognised_next (hv : h.Valid) (hsome : h.tracker.encounter? s = some e) :
    (h.next s).recognised.card = h.recognised.card +
      if e.connection.latches h.tracker.config h.tracker.control e.incident then 1 else 0 := by
  have hmem := hv.number_mem_recognised hsome
  have hafter : (h.entry s e).isRecognised h.tracker.config h.tracker.control =
      (e.connection.undergo h.tracker.config h.tracker.control
        e.incident).connection.protocol.isKnown := rfl
  rw [recognised_next hsome, hafter, Connection.latches]
  cases hbefore : e.connection.protocol.isKnown with
  | true =>
    have hin : (h.entry s e).number ∈ h.recognised := hmem.2 hbefore
    simp [hin]
  | false =>
    have hout : (h.entry s e).number ∉ h.recognised := by simp [hmem, hbefore]
    cases (e.connection.undergo h.tracker.config h.tracker.control
      e.incident).connection.protocol.isKnown <;> simp [hout]

end Chronicle

/-! ## The connections of a registry -/

namespace Registry

/-- The connections that came are still there, or have gone. -/
def Balances (r r' : Registry) (tally : Counters) : Prop :=
  tally.connectionsCreated + .ofNat r.size =
    .ofNat r'.size + tally.connectionsClosed + tally.cleanupRemoved + tally.capacityEvicted

theorem Balances.trans {r r' r'' : Registry} {a b : Counters} (h : r.Balances r' a)
    (h' : r'.Balances r'' b) : r.Balances r'' (a + b) := by
  have hcreated : (a + b).connectionsCreated = a.connectionsCreated + b.connectionsCreated := rfl
  have hclosed : (a + b).connectionsClosed = a.connectionsClosed + b.connectionsClosed := rfl
  have hremoved : (a + b).cleanupRemoved = a.cleanupRemoved + b.cleanupRemoved := rfl
  have hevicted : (a + b).capacityEvicted = a.capacityEvicted + b.capacityEvicted := rfl
  unfold Balances at h h' ⊢
  rw [hcreated, hclosed, hremoved, hevicted]
  grind

section Slots

variable {r : Registry} (hsound : r.IsSound)
include hsound

theorem slots_removeIncarnation (id : ConnectionId) :
    (r.removeIncarnation id).1.slots + (if (r.removeIncarnation id).2 = .removed then 1 else 0) =
      r.slots := by
  unfold removeIncarnation
  split
  · next c hfound =>
    split
    · simpa using hsound.slots_drop (by simp [hfound])
    · rfl
  · rfl

theorem slots_removeAll (ids : List ConnectionId) :
    (r.removeAll ids).1.slots + (r.removeAll ids).2.count .removed = r.slots := by
  induction ids generalizing r with
  | nil => rfl
  | cons id ids ih =>
    have hfirst := slots_removeIncarnation hsound id
    have hrest := ih (hsound.removeIncarnation id)
    simp only [removeAll, List.count_cons, beq_iff_eq]
    omega

/-- The slot of a newcomer is another one, unless somebody had to leave. -/
theorem slots_makeRoom? {room : Room} (hroom : r.makeRoom? = some room) :
    room.registry.slots + (if room.evicted then 1 else 0) = r.slots + 1 := by
  by_cases hslot : r.slots < r.capacity
  · cases (makeRoom?_of_lt hslot).symm.trans hroom
    rfl
  · have hnone : r.takeSlot? = none := by simp [takeSlot?, hslot]
    unfold makeRoom? at hroom
    rw [hnone] at hroom
    cases hpolicy : r.policy with
    | reject => simp [hpolicy] at hroom
    | evictOldest =>
      simp only [hpolicy, Option.bind_eq_bind, Option.bind_eq_some_iff] at hroom
      rcases hroom with ⟨c, -, r', htaken, hroom⟩
      cases hroom
      rcases Option.ite_none_right_eq_some.1 htaken with ⟨hfreed, hr'⟩
      cases hr'
      -- There is a slot again, so somebody was removed.
      have hleft := slots_removeIncarnation hsound c.id
      have hcapacity : (r.removeIncarnation c.id).1.capacity = r.capacity :=
        congrArg Prod.fst (bounds_removeIncarnation r c.id)
      split at hleft
      · simp only [if_true]
        omega
      · omega

end Slots

theorem Revises.balances {r r' : Registry} {key : ConnectionKey} {arrives replaces : Bool}
    {tally : Counters} (h : r.Revises key arrives replaces r' tally) (hsound : r.IsSound) :
    r.Balances r' tally := by
  have hsize := hsound.size_eq
  have hsize' := (h.sound hsound).size_eq
  unfold Balances
  rw [hsize, hsize']
  cases h with
  | keep | refuse | put | replace => simp [Registry.put, Registry.afterIssue]
  | @begin room c huntracked hroom =>
    have hslots := congrArg UInt64.ofNat (slots_makeRoom? hsound hroom)
    have hkept : (room.registry.afterIssue.put key c).slots = room.registry.slots := rfl
    rw [hkept]
    cases hevicted : room.evicted with
    | false =>
      simp only [hevicted, Bool.false_eq_true, if_false, UInt64.ofNat_add] at hslots ⊢
      grind
    | true =>
      simp only [hevicted, if_true, UInt64.ofNat_add] at hslots ⊢
      grind
  | drop htracked =>
    have hslots := congrArg UInt64.ofNat (hsound.slots_drop htracked)
    simp only [UInt64.ofNat_add] at hslots
    grind

/-- A slot is given back for everyone who is removed. -/
theorem balances_removeAll {r : Registry} (hsound : r.IsSound) (ids : List ConnectionId) :
    r.Balances (r.removeAll ids).1
      { cleanupRemoved := ((r.removeAll ids).2.count .removed).toUInt64 } := by
  have hsize := hsound.size_eq
  have hsize' := (hsound.removeAll ids).size_eq
  have hslots := congrArg UInt64.ofNat (slots_removeAll hsound ids)
  rw [UInt64.ofNat_add] at hslots
  unfold Balances
  rw [hsize, hsize', ← hslots]
  simp

/-- The generation counter counts those who came and those who replaced another one. -/
theorem Revises.nextGeneration_eq {r r' : Registry} {key : ConnectionKey} {arrives replaces : Bool}
    {tally : Counters} (h : r.Revises key arrives replaces r' tally) :
    r'.nextGeneration = r.nextGeneration + tally.connectionsCreated +
      if replaces then 1 else 0 := by
  cases h with
  | keep | refuse | put | drop => simp [Registry.put, Registry.drop]
  | replace c htracked => simp [Registry.put, Registry.afterIssue]
  | begin c huntracked hroom =>
    simp [Registry.put, Registry.afterIssue, nextGeneration_makeRoom? hroom]

end Registry

/-! ## One step -/

namespace Tracker

/-- What an encounter counts of data, reports and latches. -/
def toldOf (t : Tracker) : Option Encounter → Counters
  | some e => (e.reaction t.config t.control).tally.told
  | none => {}

variable {t : Tracker} {key : ConnectionKey}

theorem told_admitting_of_not_admits {pid : UInt32} (h : ¬t.admits pid = true)
    (go : Bool → Outcome) : (t.admitting pid go).tally.told = {} := by
  rw [admitting_of_not_admits h]
  rfl

theorem told_creating {startTicks : UInt64} {address : RemoteAddress} {role : Role} {i : Incident}
    {go : Registry → Connection → Outcome}
    (hgo : ∀ r c, c.id.key = key →
      (go r c).tally.told = (c.undergo t.config t.control i).tally.told) :
    (t.creating key startTicks address role go).tally.told =
      t.toldOf ((t.registry.create? key startTicks address role).map fun creation =>
        ⟨creation.connection, true, i⟩) := by
  cases hcreate : t.registry.create? key startTicks address role with
  | none =>
    simp only [creating, hcreate]
    rfl
  | some creation =>
    have htold := hgo creation.registry creation.connection (key_of_create? hcreate)
    simp only [creating, hcreate, Counters.told_add, htold]
    exact Counters.zero_add _

theorem told_reacting (hkeyed : t.registry.IsKeyed) {startTicks : UInt64} {i : Incident}
    {react : Connection → Reaction}
    (hreact : ∀ c, c.id.key = key → react c = c.undergo t.config t.control i) :
    (t.reacting key startTicks react).tally.told = t.toldOf (t.sighting? key startTicks i) := by
  unfold sighting? reacting
  cases hfind : t.registry.find? key with
  | some c => simp only [toldOf, Encounter.reaction, hreact c (hkeyed key c hfind)]
  | none =>
    refine told_creating fun r c hckey => ?_
    simp only [hreact c hckey]

/-- A connection that is met by its traffic, if its process is admitted. -/
theorem told_sighting (hkeyed : t.registry.IsKeyed) (startTicks : UInt64) {i : Incident}
    {react : Bool → Connection → Reaction}
    (hreact : ∀ c, c.id.key = key →
      react (t.control.forces key.pid) c = c.undergo t.config t.control i) :
    (t.admitting key.pid fun force => t.reacting key startTicks (react force)).tally.told =
      t.toldOf (if t.admits key.pid then t.sighting? key startTicks i else none) := by
  by_cases hadmits : t.admits key.pid = true
  · rw [if_pos hadmits, admitting_of_admits hadmits]
    exact told_reacting hkeyed hreact
  · rw [if_neg hadmits]
    exact told_admitting_of_not_admits hadmits _

/-- A call that moved bytes, of whatever kind. -/
theorem told_moving (hkeyed : t.registry.IsKeyed) {startTicks : UInt64} {i : Incident} (count : Nat)
    {react : Bool → Connection → Reaction}
    (hreact : ∀ c, c.id.key = key →
      react (t.control.forces key.pid) c = c.undergo t.config t.control i) :
    (if count = 0 then t.nothingMoved
        else t.admitting key.pid fun force =>
          t.reacting key startTicks (react force)).tally.told =
      t.toldOf (if count ≠ 0 ∧ t.admits key.pid then t.sighting? key startTicks i else none) := by
  by_cases hcount : count = 0
  · simp only [hcount, ne_eq, not_true_eq_false, false_and, if_true, if_false]
    rfl
  · simpa [hcount] using told_sighting hkeyed startTicks hreact

theorem told_opened (t : Tracker) (o : Opened) :
    (t.opened o).tally.told = t.toldOf (t.encounter? (.observe (.opened o))) := by
  have hannounce : ∀ r c, (announce o r c).tally.told =
      (c.undergo t.config t.control (.opened o)).tally.told := by
    intro r c
    unfold announce
    split <;> rfl
  by_cases hadmits : t.admits o.key.pid = true
  · simp only [encounter?, opened, if_pos hadmits, admitting_of_admits hadmits]
    cases hfind : t.registry.find? o.key with
    | none => exact told_creating fun r c _ => hannounce r c
    | some c =>
      cases hhint : o.hint with
      | implicit => rfl
      | connect | accept => exact hannounce _ _
  · simp only [encounter?, opened, if_neg hadmits]
    exact told_admitting_of_not_admits hadmits _

theorem told_closed (t : Tracker) (o : Closed) :
    (t.closed o).tally.told = t.toldOf (t.encounter? (.observe (.closed o))) := by
  by_cases hadmits : t.admits o.key.pid = true
  · simp only [encounter?, closed, if_pos hadmits, admitting_of_admits hadmits]
    cases hfind : t.registry.find? o.key with
    | none => rfl
    | some c =>
      simp only [Counters.told_add]
      exact Counters.zero_add _
  · simp only [encounter?, closed, if_neg hadmits]
    exact told_admitting_of_not_admits hadmits _

theorem told_counted (out : Outcome) : (observed.counted out).tally.told = out.tally.told := by
  simp only [observed.counted, Counters.told_add]
  exact Counters.zero_add _

/-- What a step counts of data, reports and latches is what its encounter counts. -/
theorem told_respond (hkeyed : t.registry.IsKeyed) (s : Step) :
    (t.respond s).tally.told = t.toldOf (t.encounter? s) := by
  cases s with
  | observe o =>
    cases o with
    | opened o => exact (told_counted _).trans (told_opened t o)
    | data o =>
      refine (told_counted _).trans (told_moving hkeyed o.byteCount fun c hckey => ?_)
      rw [Connection.undergo, hckey]
    | sendfile o =>
      refine (told_counted _).trans (told_moving hkeyed o.byteCount fun c hckey => ?_)
      rw [Connection.undergo, hckey]
    | closed o => exact (told_counted _).trans (told_closed t o)
    | tlsDetected o =>
      refine (told_counted _).trans (told_sighting hkeyed o.startTicks fun c hckey => ?_)
      rfl
    | cleanup ids => rfl
  | disable key generation =>
    simp only [respond, disabled, encounter?]
    cases t.registry.find? key <;> rfl
  | look key => rfl

/-! ### Books and balances -/

theorem books_respond (hkeyed : t.registry.IsKeyed) (s : Step) :
    (t.respond s).tally.Books (t.respond s).events := by
  have htold := told_respond hkeyed s
  have hanswers := answers_respond hkeyed s
  cases hencounter : t.encounter? s with
  | some e =>
    rw [hencounter] at htold hanswers
    have hevents : (t.respond s).events = (e.reaction t.config t.control).events :=
      hanswers.events_eq
    rw [hevents]
    exact (Connection.books_undergo e.connection t.config t.control e.incident).congr htold
  | none =>
    rw [hencounter] at htold hanswers
    have hevents : (t.respond s).events = [] := hanswers.events_eq
    rw [hevents]
    have hnothing : Counters.Books {} [] := ⟨rfl, rfl, rfl⟩
    exact hnothing.congr htold

theorem balances_respond (hsound : t.registry.IsSound) (s : Step) :
    t.registry.Balances (t.respond s).registry (t.respond s).tally := by
  rcases registry_respond_cases t s with ⟨key, hrevises⟩ | ⟨ids, hswept, htally, -⟩
  · exact hrevises.balances hsound
  · have hbalances := Registry.balances_removeAll hsound ids
    rwa [← htally, ← hswept] at hbalances

theorem nextGeneration_respond (t : Tracker) (s : Step) :
    (t.respond s).registry.nextGeneration =
      t.registry.nextGeneration + (t.respond s).tally.connectionsCreated +
        if t.replaces s then 1 else 0 := by
  rcases registry_respond_cases t s with ⟨key, hrevises⟩ | ⟨ids, hswept, htally, -, hreplaces⟩
  · exact hrevises.nextGeneration_eq
  · have hcreated : (t.respond s).tally.connectionsCreated = 0 :=
      congrArg Counters.connectionsCreated htally
    simp [hswept, hcreated, hreplaces]

/-! ## Runs -/

/-- How many connections were set up in place of others in a run. -/
def replacements (t : Tracker) (steps : List Step) : Nat :=
  t.count replaces steps

/-- The numbers of the incarnations whose protocol was recognised in a run. -/
def recognised (t : Tracker) (steps : List Step) : Finset Nat :=
  (t.chronicle steps).recognised

variable {config : Config} {control : Control}

/-- Latches are counted as the incarnations are recognised. -/
theorem latched_next {h : Chronicle} (hv : h.Valid) (s : Step) :
    UInt64.ofNat (h.next s).recognised.card =
      .ofNat h.recognised.card + (h.tracker.respond s).tally.protocolsLatched := by
  have hlatched : (h.tracker.respond s).tally.protocolsLatched =
      (h.tracker.toldOf (h.tracker.encounter? s)).protocolsLatched := by
    simpa using! congrArg Counters.protocolsLatched (told_respond hv.keyed s)
  rw [hlatched]
  cases hencounter : h.tracker.encounter? s with
  | none =>
    have hsame : (h.next s).recognised = h.recognised := by
      rw [Chronicle.next_of_none hencounter]
      rfl
    simp [hsame, toldOf]
  | some e =>
    have htold : (h.tracker.toldOf (some e)).protocolsLatched =
        if e.connection.latches h.tracker.config h.tracker.control e.incident then 1 else 0 :=
      Connection.protocolsLatched_undergo _ _ _ _
    rw [htold, hv.card_recognised_next hencounter, UInt64.ofNat_add]
    split <;> rfl

theorem latched_run (h : make config control = .ok t) (steps : List Step) :
    (t.run steps).counters.protocolsLatched = .ofNat (t.recognised steps).card := by
  induction steps using List.reverseRecOn with
  | nil =>
    rcases make_eq_ok h with ⟨rfl, -, -⟩
    rfl
  | append_singleton steps s ih =>
    have hnext := latched_next (valid_chronicle h steps) s
    rw [tracker_chronicle, ← chronicle_concat] at hnext
    calc
      (t.run (steps ++ [s])).counters.protocolsLatched
          = (t.run steps).counters.protocolsLatched +
            ((t.run steps).respond s).tally.protocolsLatched := by
        exact congrArg Counters.protocolsLatched (counters_concat t steps s)
      _ = .ofNat (t.recognised steps).card +
            ((t.run steps).respond s).tally.protocolsLatched := by
        rw [ih]
      _ = .ofNat (t.recognised (steps ++ [s])).card := hnext.symm

theorem books_run (h : make config control = .ok t) (steps : List Step) :
    (t.run steps).counters.Books (t.events steps) := by
  induction steps using List.reverseRecOn with
  | nil =>
    rcases make_eq_ok h with ⟨rfl, -, -⟩
    exact ⟨rfl, rfl, rfl⟩
  | append_singleton steps s ih =>
    rw [counters_concat, events_append, events_singleton]
    exact ih.append (books_respond (keyed_run h steps) s)

/-- The connections that came in a run are still there, or have gone. -/
theorem balances_run (h : make config control = .ok t) (steps : List Step) :
    t.registry.Balances (t.run steps).registry (t.run steps).counters := by
  induction steps using List.reverseRecOn with
  | nil =>
    rcases make_eq_ok h with ⟨rfl, -, -⟩
    rfl
  | append_singleton steps s ih =>
    rw [counters_concat, run_append]
    exact ih.trans (balances_respond (sound_run h steps) s)

theorem nextGeneration_run (h : make config control = .ok t) (steps : List Step) :
    (t.run steps).registry.nextGeneration =
      1 + (t.run steps).counters.connectionsCreated + .ofNat (t.replacements steps) := by
  induction steps using List.reverseRecOn with
  | nil =>
    rcases make_eq_ok h with ⟨rfl, -, -⟩
    rfl
  | append_singleton steps s ih =>
    have hcreated : (t.run (steps ++ [s])).counters.connectionsCreated =
        (t.run steps).counters.connectionsCreated +
          ((t.run steps).respond s).tally.connectionsCreated :=
      congrArg Counters.connectionsCreated (counters_concat t steps s)
    have hreplacements : t.replacements (steps ++ [s]) =
        t.replacements steps + if (t.run steps).replaces s then 1 else 0 :=
      count_concat t replaces steps s
    calc
      (t.run (steps ++ [s])).registry.nextGeneration
          = (t.run steps).registry.nextGeneration +
              ((t.run steps).respond s).tally.connectionsCreated +
              if (t.run steps).replaces s then 1 else 0 := by
        rw [run_append]
        exact nextGeneration_respond (t.run steps) s
      _ = 1 + (t.run (steps ++ [s])).counters.connectionsCreated +
            .ofNat (t.replacements (steps ++ [s])) := by
        rw [ih, hcreated, hreplacements, UInt64.ofNat_add]
        split <;> grind

/-- The counters of a run are exact, as far as words go. The connections that were created are those
that are tracked and those that were closed, swept or evicted. Chunks, their truncated bytes and
reports are those among the events. A latch was counted for each incarnation whose protocol was
recognised. And the generations are those of the connections that were created, besides those that
were set up in place of others. -/
theorem counters_exact (h : make config control = .ok t) (steps : List Step) :
    (t.run steps).counters.connectionsCreated =
        .ofNat (t.run steps).size + (t.run steps).counters.connectionsClosed +
          (t.run steps).counters.cleanupRemoved + (t.run steps).counters.capacityEvicted ∧
      (t.run steps).counters.dataChunks = .ofNat (Event.chunks (t.events steps)).length ∧
      (t.run steps).counters.statsEvents = .ofNat (Event.reports (t.events steps)).length ∧
      (t.run steps).counters.truncatedBytes =
        .ofNat (DataChunk.truncated (Event.chunks (t.events steps))) ∧
      (t.run steps).counters.protocolsLatched = .ofNat (t.recognised steps).card ∧
      (t.run steps).registry.nextGeneration =
        1 + (t.run steps).counters.connectionsCreated + .ofNat (t.replacements steps) := by
  have hbooks := books_run h steps
  have hbalances := balances_run h steps
  refine ⟨?_, hbooks.dataChunks_eq, hbooks.statsEvents_eq, hbooks.truncatedBytes_eq,
    latched_run h steps, nextGeneration_run h steps⟩
  -- In the beginning nobody is tracked.
  have hempty : t.registry.size = 0 := by
    rcases make_eq_ok h with ⟨rfl, -, -⟩
    rfl
  unfold Registry.Balances at hbalances
  simpa [hempty] using! hbalances

/-- An upload, after which the client connects again. -/
def reconnection : List Step :=
  Session.upload ⟨7, 3⟩ ++ [Session.connect ⟨7, 3⟩]

/-- A connection is created, recognised and closed, and the last request creates and shows another
one, which is then replaced. The file is in one of the three chunks, all of it truncated. -/
theorem counters_exact_reconnection :
    make .standard .everything = .ok standard ∧
      (standard.run reconnection).counters.connectionsCreated = 2 ∧
      (standard.run reconnection).counters.dataChunks = 3 ∧
      (standard.run reconnection).counters.statsEvents = 2 ∧
      (standard.run reconnection).counters.truncatedBytes = 70000 ∧
      (standard.run reconnection).counters.protocolsLatched =
        .ofNat (standard.recognised reconnection).card ∧
      (standard.run reconnection).registry.nextGeneration = 4 := by
  rcases counters_exact make_standard reconnection with
    ⟨hcreated, hchunks, hreports, htruncated, hlatched, hnext⟩
  have hsize : (standard.run reconnection).size = 1 := by decide +kernel
  have hgone : (standard.run reconnection).counters.connectionsClosed = 1 ∧
      (standard.run reconnection).counters.cleanupRemoved = 0 ∧
      (standard.run reconnection).counters.capacityEvicted = 0 := by decide +kernel
  have hevents : (Event.chunks (standard.events reconnection)).length = 3 ∧
      (Event.reports (standard.events reconnection)).length = 2 ∧
      DataChunk.truncated (Event.chunks (standard.events reconnection)) = 70000 := by decide +kernel
  have hreplaced : standard.replacements reconnection = 1 := by decide +kernel
  rw [hsize, hgone.1, hgone.2.1, hgone.2.2] at hcreated
  rw [hevents.1] at hchunks
  rw [hevents.2.1] at hreports
  rw [hevents.2.2] at htruncated
  rw [hcreated, hreplaced] at hnext
  exact ⟨make_standard, hcreated, hchunks, hreports, htruncated, hlatched, hnext⟩

end Tracker

end FlowTrace
