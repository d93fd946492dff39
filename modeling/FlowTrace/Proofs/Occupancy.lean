import FlowTrace.Proofs.Chronicle
import Mathlib.Data.Finset.Card

/-!
# Occupancy — slots and tracked keys

The slots that are taken are counted apart from the entries. `IsSound` says that the count is right:
every key is stored once, there is a slot for each entry and for nothing else, and there are no more
slots than the capacity allows. Every step keeps this, `sound_respond`.

What a step can do to the registry, and what it counts of connections that come and go, is said
once, by `Revises`: the entry of its own key is stored, begun or dropped, and room for a beginning
is made before, or refused.

It follows that a run which touches no more keys than there is capacity always has room.
-/

namespace FlowTrace

namespace Counters

/-- What is counted of connections that come and go. -/
def turnover (c : Counters) : Counters where
  capacityRejected := c.capacityRejected
  capacityEvicted := c.capacityEvicted
  connectionsCreated := c.connectionsCreated
  connectionsClosed := c.connectionsClosed
  cleanupRemoved := c.cleanupRemoved

@[simp] theorem turnover_add (a b : Counters) : (a + b).turnover = a.turnover + b.turnover := by
  show (add a b).turnover = add a.turnover b.turnover
  simp [turnover, add]

@[simp] theorem zero_add (c : Counters) : {} + c = c := by
  show add {} c = c
  simp [add]

@[simp] theorem add_zero (c : Counters) : c + {} = c := by
  show add c {} = c
  simp [add]

end Counters

namespace Registry

/-- The keys that are tracked. -/
def keys (r : Registry) : List ConnectionKey :=
  r.entries.map Prod.fst

/-- The count of slots is right. -/
structure IsSound (r : Registry) : Prop where
  nodup : r.keys.Nodup
  slots_eq : r.slots = r.keys.length
  slots_le : r.slots ≤ r.capacity

/-- The next generation was issued. -/
def afterIssue (r : Registry) : Registry :=
  { r with nextGeneration := r.nextGeneration + 1 }

/-- What a step that concerns a key can make of the registry, with what it counts. The step brings
the key as a newcomer, sets up a connection in place of the tracked one, or does neither. -/
inductive Revises (r : Registry) (key : ConnectionKey) :
    (arrives replaces : Bool) → Registry → Counters → Prop
  | keep : Revises r key false false r {}
  | put (c : Connection) (htracked : (r.find? key).isSome) :
      Revises r key false false (r.put key c) {}
  | replace (c : Connection) (htracked : (r.find? key).isSome) :
      Revises r key false true (r.afterIssue.put key c) {}
  | refuse (huntracked : r.find? key = none) (hroom : r.makeRoom? = none) :
      Revises r key true false r { capacityRejected := 1 }
  | begin {room : Room} (c : Connection) (huntracked : r.find? key = none)
      (hroom : r.makeRoom? = some room) :
      Revises r key true false (room.registry.afterIssue.put key c)
        { connectionsCreated := 1, capacityEvicted := if room.evicted then 1 else 0 }
  | drop (htracked : (r.find? key).isSome) :
      Revises r key false false (r.drop key) { connectionsClosed := 1 }

/-! ## Keys -/

section Keys

variable (r : Registry) (key : ConnectionKey)

theorem mem_keys : key ∈ r.keys ↔ (r.find? key).isSome := by
  simp only [keys, List.mem_map, find?, List.lookup_isSome_iff, beq_iff_eq]
  exact exists_congr fun e => and_congr_right fun _ => eq_comm

variable {r key} in
/-- While every key is stored once, what is stored is what is found. -/
theorem mem_entries_iff (hnodup : r.keys.Nodup) {c : Connection} :
    (key, c) ∈ r.entries ↔ r.find? key = some c := by
  constructor
  · intro hmem
    rcases List.append_of_mem hmem with ⟨before, after, hsplit⟩
    -- No entry before this one has its key.
    have hbefore : ∀ e ∈ before, (key != e.1) = true := by
      intro e he
      simp only [keys, hsplit, List.map_append, List.map_cons] at hnodup
      have hdisjoint := (List.nodup_append.1 hnodup).2.2
      have hne : e.1 ≠ key := hdisjoint e.1 (List.mem_map_of_mem he) key List.mem_cons_self
      simpa using hne.symm
    exact List.lookup_eq_some_iff.2 ⟨before, after, hsplit, hbefore⟩
  · intro hfound
    rcases List.lookup_eq_some_iff.1 hfound with ⟨before, after, hsplit, -⟩
    simp [hsplit]

theorem keys_put (c : Connection) : (r.put key c).keys = key :: r.keys.erase key := by
  simp [keys, put, List.erase_eq_eraseP', List.eraseP_map, Function.comp_def]

theorem keys_drop : (r.drop key).keys = r.keys.filter (· != key) := by
  simp [keys, drop, List.filter_map, Function.comp_def]

@[simp] theorem keys_afterIssue : r.afterIssue.keys = r.keys :=
  rfl

@[simp] theorem find?_afterIssue : r.afterIssue.find? key = r.find? key :=
  rfl

theorem install_fst (startTicks : UInt64) (address : RemoteAddress) (role : Role) :
    (r.install key startTicks address role).1 =
      r.afterIssue.put key (.start ⟨key, startTicks, r.nextGeneration⟩ address role) :=
  rfl

/-- What is stored last is what is found. -/
@[simp] theorem put_put (c d : Connection) : (r.put key c).put key d = r.put key d := by
  simp [put]

end Keys

/-! ## Sound registries -/

namespace IsSound

variable {r : Registry} {key : ConnectionKey}

theorem empty (capacity : Nat) (policy : CapacityPolicy) :
    (Registry.empty capacity policy).IsSound :=
  ⟨List.nodup_nil, rfl, Nat.zero_le _⟩

theorem afterIssue (h : r.IsSound) : r.afterIssue.IsSound :=
  ⟨h.nodup, h.slots_eq, h.slots_le⟩

theorem put (h : r.IsSound) (htracked : (r.find? key).isSome) (c : Connection) :
    (r.put key c).IsSound := by
  have hmem : key ∈ r.keys := (mem_keys r key).2 htracked
  -- The key only moves to the front.
  have hperm : (r.put key c).keys.Perm r.keys := by
    simpa [keys_put] using (List.perm_cons_erase hmem).symm
  exact ⟨hperm.nodup_iff.2 h.nodup, h.slots_eq.trans hperm.length_eq.symm, h.slots_le⟩

theorem drop (h : r.IsSound) (htracked : (r.find? key).isSome) : (r.drop key).IsSound := by
  have hmem : key ∈ r.keys := (mem_keys r key).2 htracked
  have hkeys : (r.drop key).keys = r.keys.erase key := by
    rw [keys_drop, h.nodup.erase_eq_filter]
  refine ⟨?_, ?_, ?_⟩
  · simpa [hkeys] using h.nodup.erase key
  · calc
      r.slots - 1 = r.keys.length - 1 := by rw [h.slots_eq]
      _ = (r.drop key).keys.length := by rw [hkeys, List.length_erase_of_mem hmem]
  · exact (Nat.sub_le _ _).trans h.slots_le

theorem size_eq (h : r.IsSound) : r.size = r.slots := by
  simpa [Registry.size, keys] using h.slots_eq.symm

/-- Whoever is dropped gives a slot back that was taken. -/
theorem slots_drop (h : r.IsSound) (htracked : (r.find? key).isSome) :
    (r.drop key).slots + 1 = r.slots := by
  have hpositive : 0 < r.slots := by
    rw [h.slots_eq]
    exact List.length_pos_of_mem ((mem_keys r key).2 htracked)
  exact Nat.sub_add_cancel hpositive

theorem removeIncarnation (h : r.IsSound) (id : ConnectionId) :
    (r.removeIncarnation id).1.IsSound := by
  unfold Registry.removeIncarnation
  split
  · next c hfound =>
    split
    · exact h.drop (by simp [hfound])
    · exact h
  · exact h

theorem removeAll (h : r.IsSound) (ids : List ConnectionId) : (r.removeAll ids).1.IsSound := by
  induction ids generalizing r with
  | nil => exact h
  | cons id ids ih => exact ih (h.removeIncarnation id)

/-- A slot that is taken for a key that is not tracked is its slot once it is stored. -/
theorem begin (h : r.IsSound) {r' : Registry} (hslot : r.takeSlot? = some r')
    (huntracked : r.find? key = none) (c : Connection) : (r'.afterIssue.put key c).IsSound := by
  rcases Option.ite_none_right_eq_some.1 hslot with ⟨hroom, hr'⟩
  cases hr'
  have hmem : key ∉ r.keys := by simp [mem_keys, huntracked]
  have hkeys : ({ r with slots := r.slots + 1 }.afterIssue.put key c).keys = key :: r.keys := by
    rw [keys_put, keys_afterIssue]
    exact congrArg (key :: ·) (List.erase_of_not_mem hmem)
  refine ⟨?_, ?_, hroom⟩
  · simpa [hkeys] using ⟨hmem, h.nodup⟩
  · rw [hkeys, List.length_cons, ← h.slots_eq]
    rfl

end IsSound

/-! ## Revisions -/

namespace Revises

variable {r r' : Registry} {key other : ConnectionKey} {arrives replaces : Bool} {tally : Counters}

theorem sound (h : r.Revises key arrives replaces r' tally) (hsound : r.IsSound) : r'.IsSound := by
  cases h with
  | keep | refuse => exact hsound
  | put c htracked => exact hsound.put htracked c
  | replace c htracked => exact hsound.afterIssue.put htracked c
  | begin c huntracked hroom =>
    rcases makeRoom?_cases hroom with hslot | ⟨id, hslot⟩
    · exact hsound.begin hslot huntracked c
    · -- The slot is that of the connection that had to leave.
      have hleft := (removeIncarnation_within r id).find?_eq_none huntracked
      exact (hsound.removeIncarnation id).begin hslot hleft c
  | drop htracked => exact hsound.drop htracked

/-- Other keys are tracked as before, or no more. -/
theorem of_ne (h : r.Revises key arrives replaces r' tally) (hne : other ≠ key) {c : Connection}
    (hfound : r'.find? other = some c) : r.find? other = some c := by
  cases h with
  | keep | refuse => exact hfound
  | put d htracked => simpa [find?_put_of_ne hne] using hfound
  | replace d htracked => simpa [find?_put_of_ne hne] using hfound
  | begin d huntracked hroom =>
    apply makeRoom?_within hroom
    simpa [find?_put_of_ne hne] using hfound
  | drop htracked => simpa [find?_drop_of_ne hne] using hfound

end Revises

/-! ## Capacity -/

/-- What a registry is set up with. -/
def bounds (r : Registry) : Nat × CapacityPolicy :=
  (r.capacity, r.policy)

@[simp] theorem bounds_removeIncarnation (r : Registry) (id : ConnectionId) :
    (r.removeIncarnation id).1.bounds = r.bounds := by
  unfold removeIncarnation
  split
  · split <;> rfl
  · rfl

@[simp] theorem bounds_removeAll (r : Registry) (ids : List ConnectionId) :
    (r.removeAll ids).1.bounds = r.bounds := by
  induction ids generalizing r with
  | nil => rfl
  | cons id ids ih => exact (ih _).trans (bounds_removeIncarnation r id)

theorem bounds_takeSlot? {r r' : Registry} (h : r.takeSlot? = some r') : r'.bounds = r.bounds := by
  rcases Option.ite_none_right_eq_some.1 h with ⟨-, hr'⟩
  cases hr'
  rfl

theorem Revises.bounds_eq {r r' : Registry} {key : ConnectionKey} {arrives replaces : Bool}
    {tally : Counters} (h : r.Revises key arrives replaces r' tally) : r'.bounds = r.bounds := by
  cases h with
  | @begin room c huntracked hroom =>
    have hkept : room.registry.bounds = r.bounds := by
      rcases makeRoom?_cases hroom with hslot | ⟨id, hslot⟩
      · exact bounds_takeSlot? hslot
      · exact (bounds_takeSlot? hslot).trans (bounds_removeIncarnation r id)
    exact hkept
  | _ => rfl

/-- There is a slot for a key that is not tracked. -/
def HasRoomFor (r : Registry) (key : ConnectionKey) : Prop :=
  r.find? key = none → r.slots < r.capacity

theorem makeRoom?_of_lt {r : Registry} (h : r.slots < r.capacity) :
    r.makeRoom? = some ⟨{ r with slots := r.slots + 1 }, false⟩ := by
  simp [makeRoom?, takeSlot?, h]

/-- With room, a connection is created at once. -/
theorem create?_of_lt {r : Registry} (h : r.slots < r.capacity) (key : ConnectionKey)
    (startTicks : UInt64) (address : RemoteAddress) (role : Role) :
    r.create? key startTicks address role =
      some
        { registry := ({ r with slots := r.slots + 1 }.install key startTicks address role).1
          connection := .start ⟨key, startTicks, r.nextGeneration⟩ address role
          evicted := false } := by
  simp only [create?, makeRoom?_of_lt h, Option.map_some]
  rfl

/-- With room, nobody has to leave. -/
theorem Revises.find?_of_ne {r r' : Registry} {key other : ConnectionKey}
    {arrives replaces : Bool} {tally : Counters} (h : r.Revises key arrives replaces r' tally)
    (hroom : r.HasRoomFor key) (hne : other ≠ key) : r'.find? other = r.find? other := by
  cases h with
  | keep | refuse => rfl
  | put d htracked => exact find?_put_of_ne hne _ _
  | replace d htracked => exact find?_put_of_ne hne _ _
  | begin d huntracked hmade =>
    -- Room is made by a slot alone.
    have hslot := makeRoom?_of_lt (hroom huntracked)
    cases hslot.symm.trans hmade
    exact find?_put_of_ne hne _ _
  | drop htracked => exact find?_drop_of_ne hne _

end Registry

/-! ## Steps -/

/-- The key that a step would begin to track. A call that moved no bytes tracks nothing. -/
def Step.newcomer? : Step → Option ConnectionKey
  | observe (.opened o) => some o.key
  | observe (.data o) => if o.byteCount = 0 then none else some o.key
  | observe (.sendfile o) => if o.byteCount = 0 then none else some o.key
  | observe (.tlsDetected o) => some o.key
  | observe (.closed _) | observe (.cleanup _) | disable _ _ | look _ => none

namespace Connection

variable (c : Connection) (config : Config) (control : Control) (force : Bool)

/-- What becomes of the bytes of a connection is no matter of its coming or going. -/
@[simp] theorem turnover_move (m : Movement) :
    (c.move config control force m).tally.turnover = {} := by
  simp only [move, forward, Counters.turnover_add]
  split <;> rfl

@[simp] theorem turnover_transfer (o : Transfer) :
    (c.transfer config control force o).tally.turnover = {} := by
  unfold transfer
  split
  · rfl
  split
  · rfl
  · -- The latch is counted on top of the movement.
    simp only [Counters.turnover_add, turnover_move, Counters.zero_add]
    rfl

@[simp] theorem turnover_transferFile (o : FileTransfer) :
    (c.transferFile config control force o).tally.turnover = {} := by
  unfold transferFile
  split
  · rfl
  · exact turnover_move c config control force _

@[simp] theorem turnover_finish (timestamp : Timestamp) :
    (c.finish timestamp).2.turnover = {} := by
  unfold finish
  split <;> rfl

end Connection

namespace Tracker

/-- Whether a step brings a key of an admitted process that is not tracked yet. -/
def arrives (t : Tracker) (s : Step) : Bool :=
  s.newcomer?.any fun key => t.admits key.pid && (t.registry.find? key).isNone

/-- Whether a step sets up a connection in place of the one that is tracked. -/
def replaces (t : Tracker) : Step → Bool
  | .observe (.opened o) =>
    o.hint != .implicit && t.admits o.key.pid && (t.registry.find? o.key).isSome
  | _ => false

variable {t : Tracker} {key : ConnectionKey}

@[simp] theorem turnover_announce (o : Opened) (r : Registry) (c : Connection) :
    (announce o r c).tally.turnover = {} := by
  unfold announce
  split <;> rfl

/-- A step whose process is not admitted keeps everything. -/
theorem revises_admitting_of_not_admits {pid : UInt32} (h : ¬t.admits pid = true)
    (go : Bool → Outcome) :
    t.registry.Revises key false false (t.admitting pid go).registry
      (t.admitting pid go).tally.turnover := by
  rw [admitting_of_not_admits h]
  exact .keep

/-- Whatever goes on with a fresh connection stores it, or something else in its place. -/
theorem revises_creating (huntracked : t.registry.find? key = none) (startTicks : UInt64)
    (address : RemoteAddress) (role : Role) {go : Registry → Connection → Outcome}
    (hgo : ∀ (r : Registry) c, ∃ d, (go (r.put key c) c).registry = r.put key d ∧
      (go (r.put key c) c).tally.turnover = {}) :
    t.registry.Revises key true false (t.creating key startTicks address role go).registry
      (t.creating key startTicks address role go).tally.turnover := by
  cases hcreate : t.registry.create? key startTicks address role with
  | none =>
    have hrefused := Option.map_eq_none_iff.1 hcreate
    simpa [creating, hcreate] using! Registry.Revises.refuse huntracked hrefused
  | some creation =>
    rcases Option.map_eq_some_iff.1 hcreate with ⟨room, hroom, hcreation⟩
    rcases hgo room.registry.afterIssue creation.connection with ⟨d, hd, htally⟩
    -- To install is to issue a generation and to store what starts with it.
    have hregistry : creation.registry =
        room.registry.afterIssue.put key creation.connection := by
      rw [← hcreation]
      rfl
    have hevicted : creation.evicted = room.evicted := by
      rw [← hcreation]
    have hbegin := Registry.Revises.begin d huntracked hroom
    simpa [creating, hcreate, hregistry, hd, htally, hevicted] using! hbegin

theorem revises_reacting {startTicks : UInt64} {react : Connection → Reaction}
    (hreact : ∀ c, (react c).tally.turnover = {}) :
    t.registry.Revises key (t.registry.find? key).isNone false
      (t.reacting key startTicks react).registry
      (t.reacting key startTicks react).tally.turnover := by
  unfold reacting
  -- A fresh connection is stored before it reacts, and what it becomes is stored in its place.
  cases hfind : t.registry.find? key with
  | some c => simpa [hreact] using Registry.Revises.put _ (by simp [hfind])
  | none =>
    exact revises_creating hfind _ _ _ fun r c => ⟨_, Registry.put_put r key c _, hreact c⟩

theorem revises_opened (t : Tracker) (o : Opened) :
    t.registry.Revises o.key (t.arrives (.observe (.opened o)))
      (t.replaces (.observe (.opened o))) (t.opened o).registry (t.opened o).tally.turnover := by
  by_cases hadmits : t.admits o.key.pid = true
  · simp only [opened, admitting_of_admits hadmits]
    cases hfind : t.registry.find? o.key with
    | none =>
      have hcreating := revises_creating hfind o.startTicks o.address (Role.ofHint o.hint)
        fun r c => ⟨c, announce_registry o _ c, turnover_announce o _ c⟩
      simpa [arrives, Step.newcomer?, replaces, hadmits, hfind] using hcreating
    | some c =>
      cases hhint : o.hint with
      | implicit =>
        simpa [arrives, Step.newcomer?, replaces, hfind, hhint] using! Registry.Revises.keep
      | connect | accept =>
        simpa [arrives, Step.newcomer?, replaces, hadmits, hfind, hhint, Registry.install_fst]
          using! Registry.Revises.replace _ (by simp [hfind])
  · simpa [arrives, Step.newcomer?, replaces, hadmits] using!
      revises_admitting_of_not_admits hadmits _

/-- A connection that is met by its traffic, if its process is admitted. -/
theorem revises_sighting {startTicks : UInt64} {react : Bool → Connection → Reaction}
    (hreact : ∀ force c, (react force c).tally.turnover = {}) :
    t.registry.Revises key (t.admits key.pid && (t.registry.find? key).isNone) false
      (t.admitting key.pid fun force => t.reacting key startTicks (react force)).registry
      (t.admitting key.pid fun force =>
        t.reacting key startTicks (react force)).tally.turnover := by
  by_cases hadmits : t.admits key.pid = true
  · simpa [hadmits, admitting_of_admits hadmits] using revises_reacting (hreact _)
  · simpa [hadmits] using revises_admitting_of_not_admits hadmits _

/-- A call that moved bytes, of whatever kind. -/
theorem revises_moving {startTicks : UInt64} (count : Nat) {react : Bool → Connection → Reaction}
    (hreact : ∀ force c, (react force c).tally.turnover = {}) :
    t.registry.Revises key
      ((if count = 0 then none else some key).any fun key =>
        t.admits key.pid && (t.registry.find? key).isNone) false
      (if count = 0 then t.nothingMoved
        else t.admitting key.pid fun force => t.reacting key startTicks (react force)).registry
      (if count = 0 then t.nothingMoved
        else t.admitting key.pid fun force =>
          t.reacting key startTicks (react force)).tally.turnover := by
  by_cases hcount : count = 0
  · simpa [hcount, nothingMoved] using! Registry.Revises.keep
  · simpa [hcount] using revises_sighting hreact

theorem revises_closed (t : Tracker) (o : Closed) :
    t.registry.Revises o.key false false (t.closed o).registry (t.closed o).tally.turnover := by
  by_cases hadmits : t.admits o.key.pid = true
  · simp only [closed, admitting_of_admits hadmits]
    cases hfind : t.registry.find? o.key with
    | none => exact .keep
    | some c =>
      have hdrop : t.registry.Revises o.key false false (t.registry.drop o.key)
          { connectionsClosed := 1 } := .drop (by simp [hfind])
      simpa using! hdrop
  · exact revises_admitting_of_not_admits hadmits _

/-- An observation is counted on top of what it does. -/
theorem turnover_counted (out : Outcome) :
    (observed.counted out).tally.turnover = out.tally.turnover := by
  simp only [observed.counted, Counters.turnover_add]
  exact Counters.zero_add _

/-- An observation concerns the entry of its own key. -/
theorem revises_respond {s : Step} (hkey : s.key? = some key) :
    t.registry.Revises key (t.arrives s) (t.replaces s) (t.respond s).registry
      (t.respond s).tally.turnover := by
  cases s with
  | observe o =>
    cases o with
    | opened o =>
      cases hkey
      simpa only [respond, observed, turnover_counted] using! revises_opened t o
    | data o =>
      cases hkey
      simpa only [respond, observed, turnover_counted] using!
        revises_moving o.byteCount fun force c => c.turnover_transfer t.config t.control force o
    | sendfile o =>
      cases hkey
      simpa only [respond, observed, turnover_counted] using!
        revises_moving o.byteCount fun force c => c.turnover_transferFile t.config t.control force o
    | closed o =>
      cases hkey
      simpa only [respond, observed, turnover_counted] using! revises_closed t o
    | tlsDetected o =>
      cases hkey
      have hmark : ∀ (_ : Bool) (c : Connection),
          (Reaction.mk { c with ssl := true } [] {}).tally.turnover = {} := fun _ _ => rfl
      simpa only [respond, observed, turnover_counted] using! revises_sighting hmark
    | cleanup ids => cases hkey
  | disable _ _ => cases hkey
  | look _ => cases hkey

theorem registry_admitting_of_not_admits {pid : UInt32} (h : ¬t.admits pid = true)
    (go : Bool → Outcome) : (t.admitting pid go).registry = t.registry := by
  rw [admitting_of_not_admits h]

theorem registry_reacting_of_none {startTicks : UInt64} {i : Incident}
    (h : t.sighting? key startTicks i = none) (react : Connection → Reaction) :
    (t.reacting key startTicks react).registry = t.registry := by
  unfold sighting? at h
  split at h
  · cases h
  · next huntracked =>
    have hrefused := Option.map_eq_none_iff.1 h
    simp [reacting, huntracked, creating, hrefused]

/-- A call that meets no connection changes none. -/
theorem registry_moving_of_none {startTicks : UInt64} {i : Incident} {count : Nat}
    (h : (if count ≠ 0 ∧ t.admits key.pid then t.sighting? key startTicks i else none) = none)
    (react : Bool → Connection → Reaction) :
    (if count = 0 then t.nothingMoved
      else t.admitting key.pid fun force => t.reacting key startTicks (react force)).registry =
      t.registry := by
  by_cases hcount : count = 0
  · simp [hcount, nothingMoved]
  rw [if_neg hcount]
  by_cases hadmits : t.admits key.pid = true
  · have hunseen : t.sighting? key startTicks i = none := by simpa [hcount, hadmits] using h
    rw [admitting_of_admits hadmits]
    exact registry_reacting_of_none hunseen _
  · exact registry_admitting_of_not_admits hadmits _

/-- An observation that meets no connection changes none. -/
theorem registry_respond_of_none {s : Step} (hkey : s.key? = some key)
    (hnone : t.encounter? s = none) : (t.respond s).registry = t.registry := by
  cases s with
  | observe o =>
    cases o with
    | opened o =>
      show (t.opened o).registry = t.registry
      by_cases hadmits : t.admits o.key.pid = true
      · simp only [encounter?, if_pos hadmits] at hnone
        simp only [opened, admitting_of_admits hadmits]
        cases hfind : t.registry.find? o.key with
        | none =>
          have hrefused : t.registry.create? o.key o.startTicks o.address (Role.ofHint o.hint) =
              none := by simpa [hfind] using hnone
          simp [creating, hrefused]
        | some c => cases hhint : o.hint <;> simp [hfind, hhint] at hnone ⊢
      · exact registry_admitting_of_not_admits hadmits _
    | data o => exact registry_moving_of_none hnone _
    | sendfile o => exact registry_moving_of_none hnone _
    | closed o =>
      show (t.closed o).registry = t.registry
      by_cases hadmits : t.admits o.key.pid = true
      · have huntracked : t.registry.find? o.key = none := by
          simpa [encounter?, hadmits] using hnone
        simp [closed, admitting_of_admits hadmits, huntracked]
      · exact registry_admitting_of_not_admits hadmits _
    | tlsDetected o =>
      show (t.tlsDetected o).registry = t.registry
      by_cases hadmits : t.admits o.key.pid = true
      · have hunseen : t.sighting? o.key o.startTicks .tlsDetected = none := by
          simpa [encounter?, hadmits] using hnone
        simpa [tlsDetected, admitting_of_admits hadmits] using registry_reacting_of_none hunseen _
      · exact registry_admitting_of_not_admits hadmits _
    | cleanup ids => cases hkey
  | disable _ _ => cases hkey
  | look _ => cases hkey

theorem revises_disabled (t : Tracker) (key : ConnectionKey) (generation : UInt64) :
    t.registry.Revises key false false (t.disabled key generation).registry
      (t.disabled key generation).tally.turnover := by
  unfold disabled
  cases hfind : t.registry.find? key with
  | none => exact .keep
  | some c => exact .put _ (by simp [hfind])

/-- Every step revises the entry of one key, or lets some connections leave. -/
theorem registry_respond_cases (t : Tracker) (s : Step) :
    (∃ key, t.registry.Revises key (t.arrives s) (t.replaces s) (t.respond s).registry
        (t.respond s).tally.turnover) ∨
      ∃ ids, (t.respond s).registry = (t.registry.removeAll ids).1 ∧
        (t.respond s).tally.turnover =
          { cleanupRemoved := ((t.registry.removeAll ids).2.count .removed).toUInt64 } ∧
        t.arrives s = false ∧ t.replaces s = false := by
  cases hkey : s.key? with
  | some key => exact Or.inl ⟨key, revises_respond hkey⟩
  | none =>
    cases s with
    | observe o =>
      cases o with
      | cleanup ids => exact Or.inr ⟨_, rfl, rfl, rfl, rfl⟩
      | _ => cases hkey
    | disable key generation => exact Or.inl ⟨key, revises_disabled t key generation⟩
    | look key => exact Or.inl ⟨key, .keep⟩

theorem sound_respond (hsound : t.registry.IsSound) (s : Step) :
    (t.respond s).registry.IsSound := by
  rcases registry_respond_cases t s with ⟨key, hrevises⟩ | ⟨ids, hswept, -⟩
  · exact hrevises.sound hsound
  · simpa [hswept] using hsound.removeAll ids

theorem bounds_respond (t : Tracker) (s : Step) :
    (t.respond s).registry.bounds = t.registry.bounds := by
  rcases registry_respond_cases t s with ⟨key, hrevises⟩ | ⟨ids, hswept, -⟩
  · exact hrevises.bounds_eq
  · simp [hswept]

/-! ## Runs -/

variable {config : Config} {control : Control}

theorem sound_run (h : make config control = .ok t) (steps : List Step) :
    (t.run steps).registry.IsSound := by
  induction steps using List.reverseRecOn with
  | nil =>
    rcases make_eq_ok h with ⟨rfl, -, -⟩
    exact .empty _ _
  | append_singleton steps s ih =>
    rw [run_append]
    exact sound_respond ih s

theorem bounds_run (h : make config control = .ok t) (steps : List Step) :
    (t.run steps).registry.bounds = (config.maxConnections, config.capacityPolicy) := by
  induction steps using List.reverseRecOn with
  | nil =>
    rcases make_eq_ok h with ⟨rfl, -, -⟩
    rfl
  | append_singleton steps s ih =>
    rw [run_append]
    exact (bounds_respond _ s).trans ih

theorem capacity_run (h : make config control = .ok t) (steps : List Step) :
    (t.run steps).registry.capacity = config.maxConnections :=
  congrArg Prod.fst (bounds_run h steps)

theorem policy_run (h : make config control = .ok t) (steps : List Step) :
    (t.run steps).registry.policy = config.capacityPolicy :=
  congrArg Prod.snd (bounds_run h steps)

theorem counters_concat (t : Tracker) (steps : List Step) (s : Step) :
    (t.run (steps ++ [s])).counters =
      (t.run steps).counters + ((t.run steps).respond s).tally := by
  rw [run_append]
  rfl

/-- A key that is tracked was observed, or was tracked before. -/
theorem tracked_respond {s : Step} (h : ((t.respond s).registry.find? key).isSome) :
    (t.registry.find? key).isSome ∨ s.key? = some key := by
  rcases Option.isSome_iff_exists.1 h with ⟨c, hfound⟩
  cases hkey : s.key? with
  | some k =>
    by_cases hk : key = k
    · exact Or.inr (congrArg some hk.symm)
    · exact Or.inl (by simp [(revises_respond hkey).of_ne hk hfound])
  | none =>
    -- Orders and questions concern what is tracked, and a sweep removes.
    cases s with
    | observe o =>
      cases o with
      | cleanup ids => exact Or.inl (by simp [Registry.removeAll_within _ _ key c hfound])
      | _ => cases hkey
    | disable k generation =>
      cases hk : t.registry.find? k with
      | none => exact Or.inl (by simpa [respond, disabled, hk] using h)
      | some d =>
        by_cases hsame : key = k
        · exact Or.inl (by simp [hsame, hk])
        · exact Or.inl (by simp [(revises_disabled t k generation).of_ne hsame hfound])
    | look k => exact Or.inl h

/-- Only keys that were observed are tracked. -/
theorem exists_mem_of_tracked (h : make config control = .ok t) {steps : List Step}
    (htracked : ((t.run steps).registry.find? key).isSome) : ∃ s ∈ steps, s.key? = some key := by
  induction steps using List.reverseRecOn with
  | nil =>
    rcases make_eq_ok h with ⟨rfl, -, -⟩
    cases htracked
  | append_singleton steps s ih =>
    rw [run_append] at htracked
    rcases tracked_respond htracked with hbefore | hkey
    · rcases ih hbefore with ⟨s', hmem, hs'⟩
      exact ⟨s', List.mem_append_left _ hmem, hs'⟩
    · exact ⟨s, by simp, hkey⟩

/-- A run that observes no more keys than there is capacity has room for each of them. -/
theorem hasRoomFor_of_few (h : make config control = .ok t) {few : Finset ConnectionKey}
    (hfew : few.card ≤ config.maxConnections) {steps : List Step}
    (hsteps : ∀ s ∈ steps, ∀ k, s.key? = some k → k ∈ few) (hkey : key ∈ few) :
    (t.run steps).registry.HasRoomFor key := by
  intro huntracked
  have hsound := sound_run h steps
  -- The tracked keys are some of the few, and the key is another of them.
  have hsubset : (t.run steps).registry.keys.toFinset ⊂ few := by
    apply (Finset.ssubset_iff_of_subset _).2
    · exact ⟨key, hkey, by simp [Registry.mem_keys, huntracked]⟩
    · intro k hk
      have htracked := (Registry.mem_keys _ k).1 (List.mem_toFinset.1 hk)
      rcases exists_mem_of_tracked h htracked with ⟨s, hs, hsk⟩
      exact hsteps s hs k hsk
  calc
    (t.run steps).registry.slots = (t.run steps).registry.keys.toFinset.card := by
      rw [hsound.slots_eq, List.toFinset_card_of_nodup hsound.nodup]
    _ < few.card := Finset.card_lt_card hsubset
    _ ≤ config.maxConnections := hfew
    _ = (t.run steps).registry.capacity := (capacity_run h steps).symm

end Tracker

end FlowTrace
