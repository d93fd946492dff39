import FlowTrace.Proofs.Integrity

/-!
# Capacity — newcomers to a full registry

A step `arrives` if it brings a key of an admitted process that is not tracked, and it `crowds` if
the registry has no slot left for it. Under one policy the oldest connection makes way, and the
search for it, its removal and the second reservation of a slot never fail: a full registry has
connections, as its capacity is not zero, and the oldest of them is found under its own key. Under
the other policy the newcomer is turned away before anything is done.

Steps that bring no newcomer never ask for room. They do the same in a registry of any capacity.
-/

namespace FlowTrace

namespace Registry

/-- There is a connection for every slot. -/
def isFull (r : Registry) : Bool :=
  r.capacity ≤ r.size

/-- What becomes of the tracked connections when the oldest one leaves for a newcomer, after a
number of generations were issued. -/
structure MakesWay (r r' : Registry) (key : ConnectionKey) (issued : Nat) (oldest : Connection) :
    Prop where
  tracked : r.find? oldest.id.key = some oldest
  oldest_le : ∀ other c, r.find? other = some c → oldest.id.generation ≤ c.id.generation
  /-- Words that wrapped around may be used twice. -/
  oldest_lt : issued < UInt64.size → ∀ other c, r.find? other = some c → other ≠ oldest.id.key →
    oldest.id.generation < c.id.generation
  left : r'.find? oldest.id.key = none
  kept : ∀ other, other ≠ oldest.id.key → other ≠ key → r'.find? other = r.find? other
  size_eq : r'.size = r.size

/-- The same connections, within another capacity. -/
def resized (r : Registry) (capacity : Nat) : Registry :=
  { r with capacity }

/-! ## The oldest connection -/

theorem exists_oldest {entries : List (ConnectionKey × Connection)} (h : entries ≠ []) :
    ∃ c, oldest entries = some c := by
  cases entries with
  | nil => exact absurd rfl h
  | cons e entries =>
    unfold oldest
    split
    · split <;> exact ⟨_, rfl⟩
    · exact ⟨_, rfl⟩

/-- The oldest connection is one of those that are stored, and none of them is older. -/
theorem oldest_eq_some {entries : List (ConnectionKey × Connection)} {c : Connection}
    (h : oldest entries = some c) :
    (∃ key, (key, c) ∈ entries) ∧ ∀ e ∈ entries, c.id.generation ≤ e.2.id.generation := by
  induction entries generalizing c with
  | nil => cases h
  | cons e entries ih =>
    unfold oldest at h
    split at h
    · next d hd =>
      rcases ih hd with ⟨⟨key, hmem⟩, hle⟩
      split at h
      · next hlt =>
        cases h
        refine ⟨⟨key, List.mem_cons_of_mem _ hmem⟩, ?_⟩
        rintro e' (_ | ⟨_, he'⟩)
        · exact UInt64.le_of_lt hlt
        · exact hle e' he'
      · next hge =>
        cases h
        refine ⟨⟨e.1, List.mem_cons_self⟩, ?_⟩
        rintro e' (_ | ⟨_, he'⟩)
        · exact UInt64.le_refl _
        · exact UInt64.le_trans (UInt64.not_lt.1 hge) (hle e' he')
    · next hnone =>
      cases h
      -- Nothing is the oldest of the others, so there are none.
      have hnil : entries = [] := by
        by_contra hne
        rcases exists_oldest hne with ⟨d, hd⟩
        cases hnone.symm.trans hd
      subst hnil
      refine ⟨⟨e.1, List.mem_cons_self⟩, ?_⟩
      rintro e' (_ | ⟨_, he'⟩)
      · exact UInt64.le_refl _
      · cases he'

/-! ## Making room in a full registry -/

section Full

variable {r : Registry}

theorem IsSound.isFull_iff (h : r.IsSound) : r.isFull = true ↔ r.takeSlot? = none := by
  simp [isFull, takeSlot?, h.size_eq]

theorem IsSound.slots_lt (h : r.IsSound) (hfull : r.isFull = false) : r.slots < r.capacity := by
  simpa [isFull, h.size_eq] using hfull

theorem makeRoom?_of_reject (hnoslot : r.takeSlot? = none) (hpolicy : r.policy = .reject) :
    r.makeRoom? = none := by
  simp [makeRoom?, hnoslot, hpolicy]

/-- The oldest connection leaves its slot to the newcomer. -/
theorem makeRoom?_of_evictOldest (hsound : r.IsSound) (hkeyed : r.IsKeyed)
    (hnoslot : r.takeSlot? = none) (hpolicy : r.policy = .evictOldest)
    (hcapacity : r.capacity ≠ 0) :
    ∃ c, r.find? c.id.key = some c ∧
      (∀ other d, r.find? other = some d → c.id.generation ≤ d.id.generation) ∧
      r.makeRoom? = some ⟨{ r.drop c.id.key with slots := r.slots }, true⟩ := by
  have hfull : r.capacity ≤ r.slots := by simpa [takeSlot?] using hnoslot
  have hnonempty : r.entries ≠ [] := by
    intro hnil
    have hzero : r.slots = 0 := by simp [hsound.slots_eq, keys, hnil]
    omega
  rcases exists_oldest hnonempty with ⟨c, holdest⟩
  rcases oldest_eq_some holdest with ⟨⟨key, hmem⟩, hle⟩
  have hfound : r.find? key = some c := (mem_entries_iff hsound.nodup).1 hmem
  have hkey : c.id.key = key := hkeyed key c hfound
  subst hkey
  -- Its slot is given back, so there is one again.
  have hpositive : 0 < r.slots := by omega
  have hslot : (r.drop c.id.key).takeSlot? = some { r.drop c.id.key with slots := r.slots } := by
    have hlt : r.slots - 1 < r.capacity := by
      have hbound := hsound.slots_le
      omega
    have hsame : r.slots - 1 + 1 = r.slots := Nat.sub_add_cancel hpositive
    simp [takeSlot?, drop, hlt, hsame]
  refine ⟨c, hfound, ?_, ?_⟩
  · intro other d hother
    exact hle (other, d) ((mem_entries_iff hsound.nodup).2 hother)
  · simp [makeRoom?, hnoslot, hpolicy, holdest, removeIncarnation, hfound, hslot]

end Full

/-- Who is not named by a sweep stays. -/
theorem find?_removeAll_of_not_mem {r : Registry} {ids : List ConnectionId} {key : ConnectionKey}
    (h : key ∉ ids.map (·.key)) : (r.removeAll ids).1.find? key = r.find? key := by
  induction ids generalizing r with
  | nil => rfl
  | cons id ids ih =>
    have hsplit : key ≠ id.key ∧ key ∉ ids.map (·.key) := by simpa [not_or] using h
    rcases hsplit with ⟨hne, hothers⟩
    have hfirst : (r.removeIncarnation id).1.find? key = r.find? key := by
      unfold removeIncarnation
      split
      · split
        · exact find?_drop_of_ne hne r
        · rfl
      · rfl
    exact (ih hothers).trans hfirst

/-! ## Revisions -/

/-- Without a newcomer nobody is refused, and nobody has to leave. -/
theorem Revises.of_not_arrives {r r' : Registry} {key : ConnectionKey} {replaces : Bool}
    {tally : Counters} (h : r.Revises key false replaces r' tally) :
    tally.capacityRejected = 0 ∧ tally.capacityEvicted = 0 ∧
      ∀ other, other ≠ key → r'.find? other = r.find? other := by
  cases h with
  | keep => exact ⟨rfl, rfl, fun _ _ => rfl⟩
  | put c _ => exact ⟨rfl, rfl, fun _ hne => find?_put_of_ne hne _ _⟩
  | replace c _ => exact ⟨rfl, rfl, fun _ hne => find?_put_of_ne hne _ _⟩
  | drop _ => exact ⟨rfl, rfl, fun _ hne => find?_drop_of_ne hne _⟩

/-- With a slot left, a newcomer takes it. -/
theorem Revises.of_slot {r r' : Registry} {key : ConnectionKey} {replaces : Bool}
    {tally : Counters} (h : r.Revises key true replaces r' tally) (hslot : r.slots < r.capacity) :
    tally.capacityRejected = 0 ∧ tally.capacityEvicted = 0 ∧ (r'.find? key).isSome ∧
      ∀ other, other ≠ key → r'.find? other = r.find? other := by
  cases h with
  | refuse _ hrefused => cases (makeRoom?_of_lt hslot).symm.trans hrefused
  | begin c _ hroom =>
    cases (makeRoom?_of_lt hslot).symm.trans hroom
    exact ⟨rfl, rfl, by simp, fun _ hne => find?_put_of_ne hne _ _⟩

/-- Without one, the oldest connection leaves its slot to the newcomer. -/
theorem Revises.of_full {r r' : Registry} {key : ConnectionKey} {replaces : Bool}
    {tally : Counters} (h : r.Revises key true replaces r' tally) (hsound : r.IsSound)
    (hkeyed : r.IsKeyed) (hnoslot : r.takeSlot? = none) (hpolicy : r.policy = .evictOldest)
    (hcapacity : r.capacity ≠ 0) {issued : Nat}
    (hapart : issued < UInt64.size → ∀ key other c d, key ≠ other → r.find? key = some c →
      r.find? other = some d → c.id.generation ≠ d.id.generation) :
    tally.capacityRejected = 0 ∧ tally.capacityEvicted = 1 ∧ (r'.find? key).isSome ∧
      ∃ oldest, r.MakesWay r' key issued oldest := by
  rcases makeRoom?_of_evictOldest hsound hkeyed hnoslot hpolicy hcapacity with
    ⟨oldest, htracked, hle, hmade⟩
  have hsound' := h.sound hsound
  have hlt : issued < UInt64.size → ∀ other c, r.find? other = some c →
      other ≠ oldest.id.key → oldest.id.generation < c.id.generation := by
    intro hfew other c hfound hother
    have hdistinct := hapart hfew _ _ _ _ hother hfound htracked
    exact UInt64.lt_of_le_of_ne (hle other c hfound) (Ne.symm hdistinct)
  cases h with
  | refuse _ hrefused => cases hmade.symm.trans hrefused
  | begin c huntracked hroom =>
    cases hmade.symm.trans hroom
    have hne : oldest.id.key ≠ key := by
      intro hsame
      rw [← hsame, htracked] at huntracked
      cases huntracked
    refine ⟨rfl, rfl, by simp, oldest, htracked, hle, hlt, ?_, ?_, ?_⟩
    · exact (find?_put_of_ne hne _ _).trans (find?_drop_self r _)
    · intro other hother hnew
      exact (find?_put_of_ne hnew _ _).trans (find?_drop_of_ne hother r)
    · rw [hsound'.size_eq, hsound.size_eq]
      rfl

/-! ## Other capacities -/

theorem removeIncarnation_resized (r : Registry) (capacity : Nat) (id : ConnectionId) :
    (r.resized capacity).removeIncarnation id =
      ((r.removeIncarnation id).1.resized capacity, (r.removeIncarnation id).2) := by
  have hfind : (r.resized capacity).find? id.key = r.find? id.key := rfl
  unfold removeIncarnation
  rw [hfind]
  split
  · split <;> rfl
  · rfl

theorem removeAll_resized (r : Registry) (capacity : Nat) (ids : List ConnectionId) :
    (r.resized capacity).removeAll ids =
      ((r.removeAll ids).1.resized capacity, (r.removeAll ids).2) := by
  induction ids generalizing r with
  | nil => rfl
  | cons id ids ih => simp [removeAll, removeIncarnation_resized, ih]

end Registry

/-! ## Steps -/

/-- The keys that a step names. -/
def Step.names : Step → List ConnectionKey
  | observe (.cleanup ids) => ids.map (·.key)
  | observe o => o.key?.toList
  | disable key _ | look key => [key]

/-- An answer, in a registry of another capacity. -/
def Outcome.resized (out : Outcome) (capacity : Nat) : Outcome :=
  { out with registry := out.registry.resized capacity }

namespace Tracker

/-- A newcomer finds the registry full. -/
def crowds (t : Tracker) (s : Step) : Bool :=
  t.arrives s && t.registry.isFull

/-- The same tracker, with a registry of another capacity. -/
def resized (t : Tracker) (capacity : Nat) : Tracker :=
  { t with registry := t.registry.resized capacity }

/-- Every newcomer is let in, and if there is no slot left, the oldest connection makes way. -/
structure LetsIn (t : Tracker) (issued : Nat) (s : Step) : Prop where
  nobody_refused : (t.respond s).tally.capacityRejected = 0
  evicted_eq : (t.respond s).tally.capacityEvicted = if t.crowds s then 1 else 0
  let_in : t.arrives s = true → ∃ key c, s.newcomer? = some key ∧
    (t.respond s).registry.find? key = some c ∧ c.id.key = key ∧
    c.id.generation = t.registry.nextGeneration
  makes_way : t.crowds s = true → ∃ key oldest, s.newcomer? = some key ∧
    t.registry.MakesWay (t.respond s).registry key issued oldest
  kept : t.crowds s = false → ∀ key, key ∉ s.names →
    (t.respond s).registry.find? key = t.registry.find? key

/-- No connection ever leaves for a newcomer, who is turned away if there is no slot left, and this
is all that the capacity does. -/
structure TurnsAway (t : Tracker) (s : Step) : Prop where
  nobody_evicted : (t.respond s).tally.capacityEvicted = 0
  refused : t.crowds s = true → t.respond s =
    { registry := t.registry, tally := { observations := 1, capacityRejected := 1 } }
  refused_eq : (t.respond s).tally.capacityRejected = if t.crowds s then 1 else 0
  kept : ∀ key, key ∉ s.names → (t.respond s).registry.find? key = t.registry.find? key
  unhindered : t.arrives s = false → ∀ capacity,
    (t.resized capacity).respond s = (t.respond s).resized capacity

variable {t : Tracker} {s : Step} {key : ConnectionKey}

/-! ### Newcomers -/

theorem key?_of_newcomer? (h : s.newcomer? = some key) : s.key? = some key := by
  cases s with
  | observe o =>
    cases o with
    | data o | sendfile o =>
      simp only [Step.newcomer?, Option.ite_none_left_eq_some] at h
      exact h.2
    | opened o | tlsDetected o => exact h
    | closed o | cleanup ids => cases h
  | disable _ _ | look _ => cases h

theorem names_of_key? (h : s.key? = some key) : s.names = [key] := by
  cases s with
  | observe o =>
    cases o with
    | cleanup ids => cases h
    | _ => cases h; rfl
  | disable _ _ | look _ => cases h

/-- Only an observation of a key that is not tracked arrives. -/
theorem exists_of_arrives (h : t.arrives s = true) :
    ∃ key, s.newcomer? = some key ∧ t.admits key.pid = true ∧ t.registry.find? key = none := by
  unfold arrives at h
  cases hnewcomer : s.newcomer? with
  | none => simp [hnewcomer] at h
  | some key =>
    refine ⟨key, rfl, ?_⟩
    simpa only [hnewcomer, Option.any_some, Bool.and_eq_true, Option.isNone_iff_eq_none] using h

theorem revises_of_arrives (h : t.arrives s = true) (hkey : s.key? = some key) :
    t.registry.Revises key true (t.replaces s) (t.respond s).registry
      (t.respond s).tally.turnover := by
  simpa [h] using revises_respond (t := t) hkey

/-- A newcomer that is stored has the next generation. -/
theorem stored_of_arrives (hkeyed : t.registry.IsKeyed) {c : Connection}
    (hkey : s.key? = some key) (huntracked : t.registry.find? key = none)
    (hstored : (t.respond s).registry.find? key = some c) :
    c.id.key = key ∧ c.id.generation = t.registry.nextGeneration := by
  have hanswers := answers_respond hkeyed s
  cases hencounter : t.encounter? s with
  | none =>
    rw [registry_respond_of_none hkey hencounter, huntracked] at hstored
    cases hstored
  | some e =>
    have hsame : e.key = key := key_of_encounter? hkeyed hencounter hkey
    rw [hencounter] at hanswers
    have hmeets : t.Meets e (t.respond s) := hanswers
    have hid : c.id = e.connection.id := by
      have hafter := hmeets.find?_key
      rw [hsame, hstored] at hafter
      rw [(Encounter.of_after? hafter.symm).2]
      exact Connection.id_undergo t.control e.incident
    -- It begins with this step, as its key was not tracked.
    cases hnew : e.isNew with
    | true => exact ⟨hid ▸ hsame, hid ▸ (hmeets.birth hnew).2.1⟩
    | false =>
      have hfound := (hmeets.found hnew).2.1
      rw [hsame, huntracked] at hfound
      cases hfound

/-- While no newcomer finds the registry full, the capacity is no matter, and a step leaves the keys
alone that it does not name. -/
theorem quiet_of_not_crowds (hsound : t.registry.IsSound) (h : t.crowds s = false) :
    (t.respond s).tally.capacityRejected = 0 ∧ (t.respond s).tally.capacityEvicted = 0 ∧
      ∀ key, key ∉ s.names → (t.respond s).registry.find? key = t.registry.find? key := by
  cases hkey : s.key? with
  | some key =>
    have hrevises := revises_respond (t := t) hkey
    cases harrives : t.arrives s with
    | false =>
      rw [harrives] at hrevises
      simpa [names_of_key? hkey] using! hrevises.of_not_arrives
    | true =>
      have hfull : t.registry.isFull = false := by simpa [crowds, harrives] using h
      rw [harrives] at hrevises
      rcases hrevises.of_slot (hsound.slots_lt hfull) with ⟨hrejected, hevicted, -, hothers⟩
      simpa [names_of_key? hkey] using! ⟨hrejected, hevicted, hothers⟩
  | none =>
    cases s with
    | observe o =>
      cases o with
      | cleanup ids =>
        refine ⟨rfl, rfl, fun key hnames => Registry.find?_removeAll_of_not_mem ?_⟩
        intro hmem
        exact hnames ((List.take_sublist _ _).map _ |>.mem hmem)
      | _ => cases hkey
    | disable key generation =>
      simpa [Step.names] using! (revises_disabled t key generation).of_not_arrives
    | look key => exact ⟨rfl, rfl, fun _ _ => rfl⟩

/-! ### A full registry -/

/-- Whoever arrives is to be created, whatever is to happen next. -/
theorem exists_creating (h : t.arrives s = true) :
    ∃ key startTicks address role go,
      t.respond s = observed.counted (t.creating key startTicks address role go) := by
  rcases exists_of_arrives h with ⟨key, hnewcomer, hadmits, huntracked⟩
  cases s with
  | observe o =>
    cases o with
    | opened o =>
      cases hnewcomer
      simp only [respond, observed, opened, admitting_of_admits hadmits, huntracked]
      exact ⟨_, _, _, _, _, rfl⟩
    | data o | sendfile o =>
      rcases Option.ite_none_left_eq_some.1 hnewcomer with ⟨hmoved, hkey⟩
      cases hkey
      simp only [respond, observed, transferred, fileTransferred, if_neg hmoved,
        admitting_of_admits hadmits, reacting, huntracked]
      exact ⟨_, _, _, _, _, rfl⟩
    | tlsDetected o =>
      cases hnewcomer
      simp only [respond, observed, tlsDetected, admitting_of_admits hadmits, reacting, huntracked]
      exact ⟨_, _, _, _, _, rfl⟩
    | closed o | cleanup ids => cases hnewcomer
  | disable _ _ | look _ => cases hnewcomer

/-- The registry that rejects turns the newcomer away before anything is done. -/
theorem respond_of_refused (hsound : t.registry.IsSound) (hpolicy : t.registry.policy = .reject)
    (hcrowds : t.crowds s = true) :
    t.respond s =
      { registry := t.registry, tally := { observations := 1, capacityRejected := 1 } } := by
  rcases Bool.and_eq_true_iff.1 hcrowds with ⟨harrives, hfull⟩
  rcases exists_creating harrives with ⟨key, startTicks, address, role, go, hrespond⟩
  have hnone : t.registry.makeRoom? = none :=
    Registry.makeRoom?_of_reject (hsound.isFull_iff.1 hfull) hpolicy
  simpa [creating, Registry.create?, hnone] using! hrespond

section Evicting

variable (hsound : t.registry.IsSound) (hkeyed : t.registry.IsKeyed)
  (hpolicy : t.registry.policy = .evictOldest) (hcapacity : t.registry.capacity ≠ 0) {issued : Nat}
  (hapart : issued < UInt64.size → ∀ key other c d, key ≠ other → t.registry.find? key = some c →
    t.registry.find? other = some d → c.id.generation ≠ d.id.generation)
include hsound hkeyed hpolicy hcapacity hapart

theorem makesWay_of_crowds (hcrowds : t.crowds s = true) (hnewcomer : s.newcomer? = some key) :
    (t.respond s).tally.capacityRejected = 0 ∧ (t.respond s).tally.capacityEvicted = 1 ∧
      ((t.respond s).registry.find? key).isSome ∧
      ∃ oldest, t.registry.MakesWay (t.respond s).registry key issued oldest := by
  rcases Bool.and_eq_true_iff.1 hcrowds with ⟨harrives, hfull⟩
  have hrevises := revises_of_arrives harrives (key?_of_newcomer? hnewcomer)
  simpa using! hrevises.of_full hsound hkeyed (hsound.isFull_iff.1 hfull) hpolicy hcapacity hapart

/-- A newcomer is stored, whether there is a slot left or the oldest connection leaves its own. -/
theorem isSome_of_arrives (harrives : t.arrives s = true) (hnewcomer : s.newcomer? = some key) :
    ((t.respond s).registry.find? key).isSome := by
  cases hfull : t.registry.isFull with
  | false =>
    have hrevises := revises_of_arrives harrives (key?_of_newcomer? hnewcomer)
    exact (hrevises.of_slot (hsound.slots_lt hfull)).2.2.1
  | true =>
    have hcrowds : t.crowds s = true := by simp [crowds, harrives, hfull]
    exact (makesWay_of_crowds hsound hkeyed hpolicy hcapacity hapart hcrowds hnewcomer).2.2.1

/-- What the registry that evicts promises of a step. -/
theorem letsIn (s : Step) : t.LetsIn issued s := by
  have hway : t.crowds s = true →
      (t.respond s).tally.capacityRejected = 0 ∧ (t.respond s).tally.capacityEvicted = 1 ∧
        ∃ key oldest, s.newcomer? = some key ∧
          t.registry.MakesWay (t.respond s).registry key issued oldest := by
    intro hcrowds
    rcases exists_of_arrives (Bool.and_eq_true_iff.1 hcrowds).1 with ⟨key, hnewcomer, -, -⟩
    rcases makesWay_of_crowds hsound hkeyed hpolicy hcapacity hapart hcrowds hnewcomer with
      ⟨hrejected, hevicted, -, oldest, hway⟩
    exact ⟨hrejected, hevicted, key, oldest, hnewcomer, hway⟩
  refine ⟨?_, ?_, ?_, fun hcrowds => (hway hcrowds).2.2,
    fun hcrowds => (quiet_of_not_crowds hsound hcrowds).2.2⟩
  · cases hcrowds : t.crowds s with
    | false => exact (quiet_of_not_crowds hsound hcrowds).1
    | true => exact (hway hcrowds).1
  · cases hcrowds : t.crowds s with
    | false => exact (quiet_of_not_crowds hsound hcrowds).2.1
    | true => exact (hway hcrowds).2.1
  · intro harrives
    rcases exists_of_arrives harrives with ⟨key, hnewcomer, -, huntracked⟩
    have hstored := isSome_of_arrives hsound hkeyed hpolicy hcapacity hapart harrives hnewcomer
    rcases Option.isSome_iff_exists.1 hstored with ⟨c, hfound⟩
    exact ⟨key, c, hnewcomer, hfound,
      stored_of_arrives hkeyed (key?_of_newcomer? hnewcomer) huntracked hfound⟩

end Evicting

/-! ### Steps that bring no newcomer -/

section Resized

variable (capacity : Nat)

theorem admitting_resized {pid : UInt32} {go go' : Bool → Outcome}
    (h : t.admits pid = true → ∀ force, go' force = (go force).resized capacity) :
    (t.resized capacity).admitting pid go' = (t.admitting pid go).resized capacity := by
  have hforce : (t.resized capacity).control.target.force? pid = t.control.target.force? pid := rfl
  unfold admitting
  rw [hforce]
  cases hpid : t.control.target.force? pid with
  | none => rfl
  | some force => exact h (by simp [admits, hpid]) force

theorem announce_resized (o : Opened) (r : Registry) (c : Connection) :
    announce o (r.resized capacity) c = (announce o r c).resized capacity := by
  unfold announce
  split <;> rfl

/-- A tracked connection reacts in its place. -/
theorem sighting_resized {startTicks : UInt64} {react : Bool → Connection → Reaction}
    (htracked : t.admits key.pid = true → (t.registry.find? key).isSome) :
    ((t.resized capacity).admitting key.pid fun force =>
        (t.resized capacity).reacting key startTicks (react force)) =
      (t.admitting key.pid fun force => t.reacting key startTicks (react force)).resized
        capacity := by
  refine admitting_resized capacity fun hadmits force => ?_
  rcases Option.isSome_iff_exists.1 (htracked hadmits) with ⟨c, hfound⟩
  have hfound' : (t.resized capacity).registry.find? key = some c := hfound
  simp only [reacting, hfound, hfound']
  rfl

/-- A call that moved bytes, of whatever kind. -/
theorem moving_resized {startTicks : UInt64} {count : Nat} {react : Bool → Connection → Reaction}
    (htracked : count ≠ 0 → t.admits key.pid = true → (t.registry.find? key).isSome) :
    (if count = 0 then (t.resized capacity).nothingMoved
      else (t.resized capacity).admitting key.pid fun force =>
        (t.resized capacity).reacting key startTicks (react force)) =
      (if count = 0 then t.nothingMoved
        else t.admitting key.pid fun force =>
          t.reacting key startTicks (react force)).resized capacity := by
  by_cases hcount : count = 0
  · rw [if_pos hcount, if_pos hcount]
    rfl
  · rw [if_neg hcount, if_neg hcount]
    exact sighting_resized capacity (htracked hcount)

/-- A step that brings no newcomer does the same within any capacity. -/
theorem respond_resized (h : t.arrives s = false) :
    (t.resized capacity).respond s = (t.respond s).resized capacity := by
  cases s with
  | observe o =>
    cases o with
    | opened o =>
      have htracked : t.admits o.key.pid = true → (t.registry.find? o.key).isSome := by
        simpa [arrives, Step.newcomer?] using h
      refine congrArg observed.counted (admitting_resized capacity fun hadmits _ => ?_)
      rcases Option.isSome_iff_exists.1 (htracked hadmits) with ⟨c, hfound⟩
      have hfound' : (t.resized capacity).registry.find? o.key = some c := hfound
      simp only [hfound, hfound']
      cases o.hint with
      | implicit => rfl
      | connect | accept =>
        exact announce_resized capacity o (t.registry.install _ _ _ _).1
          (t.registry.install _ _ _ _).2
    | data o | sendfile o =>
      refine congrArg observed.counted (moving_resized capacity fun hcount => ?_)
      simpa [arrives, Step.newcomer?, hcount] using h
    | closed o =>
      refine congrArg observed.counted (admitting_resized capacity fun _ _ => ?_)
      have hfind : (t.resized capacity).registry.find? o.key = t.registry.find? o.key := rfl
      rw [hfind]
      cases t.registry.find? o.key <;> rfl
    | tlsDetected o =>
      have htracked : t.admits o.key.pid = true → (t.registry.find? o.key).isSome := by
        simpa [arrives, Step.newcomer?] using h
      exact congrArg observed.counted (sighting_resized capacity htracked)
    | cleanup ids =>
      simp only [respond, observed, swept, resized, Registry.removeAll_resized]
      rfl
  | disable key generation =>
    have hfind : (t.resized capacity).registry.find? key = t.registry.find? key := rfl
    simp only [respond, disabled, hfind]
    cases t.registry.find? key <;> rfl
  | look key => rfl

end Resized

/-- What the registry that rejects promises of a step. -/
theorem turnsAway (hsound : t.registry.IsSound) (hpolicy : t.registry.policy = .reject)
    (s : Step) : t.TurnsAway s := by
  have hrefused := respond_of_refused (s := s) hsound hpolicy
  refine ⟨?_, hrefused, ?_, ?_, fun harrives capacity => respond_resized capacity harrives⟩
  · cases hcrowds : t.crowds s with
    | false => exact (quiet_of_not_crowds hsound hcrowds).2.1
    | true => simp [hrefused hcrowds]
  · cases hcrowds : t.crowds s with
    | false => simpa using (quiet_of_not_crowds hsound hcrowds).1
    | true => simp [hrefused hcrowds]
  · intro key hnames
    cases hcrowds : t.crowds s with
    | false => exact (quiet_of_not_crowds hsound hcrowds).2.2 key hnames
    | true => simp [hrefused hcrowds]

/-! ## Runs -/

variable {config : Config} {control : Control}

theorem letsIn_run (h : make config control = .ok t)
    (hpolicy : config.capacityPolicy = .evictOldest) (steps : List Step) (s : Step) :
    (t.run steps).LetsIn (t.issued steps) s := by
  have hcapacity : (t.run steps).registry.capacity ≠ 0 := by
    rw [capacity_run h steps]
    exact Config.bound_ne_zero (make_eq_ok h).2.1 .maxConnections (by simp [Config.bounds])
  exact letsIn (sound_run h steps) (keyed_run h steps) ((policy_run h steps).trans hpolicy)
    hcapacity (fun hfew _ _ _ _ hne => generation_ne_of_ne h hfew hne) s

theorem turnsAway_run (h : make config control = .ok t) (hpolicy : config.capacityPolicy = .reject)
    (steps : List Step) (s : Step) : (t.run steps).TurnsAway s :=
  turnsAway (sound_run h steps) ((policy_run h steps).trans hpolicy) s

/-- A counter that no step moves stays at zero. -/
theorem counter_eq_zero (counter : Counters → UInt64)
    (hadd : ∀ a b, counter (a + b) = counter a + counter b) (hzero : counter {} = 0)
    (h : make config control = .ok t)
    (hstill : ∀ steps s, counter ((t.run steps).respond s).tally = 0) (steps : List Step) :
    counter (t.run steps).counters = 0 := by
  induction steps using List.reverseRecOn with
  | nil =>
    rcases make_eq_ok h with ⟨rfl, -, -⟩
    exact hzero
  | append_singleton steps s ih =>
    calc
      counter (t.run (steps ++ [s])).counters
          = counter (t.run steps).counters + counter ((t.run steps).respond s).tally := by
        rw [counters_concat, hadd]
      _ = 0 := by simp [ih, hstill]

/-- In every run, newcomers to a full registry fare as the policy has it. Under the one, the oldest
connection leaves for each of them and for nobody else, so none is refused. Under the other, nobody
leaves for them, they change nothing but the counters, and the steps that bring no newcomer do what
they would do within any other capacity. -/
theorem capacity_policy (h : make config control = .ok t) (steps : List Step) :
    (t.run steps).registry.capacity = config.maxConnections ∧
      (config.capacityPolicy = .evictOldest →
        (t.run steps).counters.capacityRejected = 0 ∧
          ∀ s, (t.run steps).LetsIn (t.issued steps) s) ∧
      (config.capacityPolicy = .reject →
        (t.run steps).counters.capacityEvicted = 0 ∧ ∀ s, (t.run steps).TurnsAway s) := by
  refine ⟨capacity_run h steps, ?_, ?_⟩
  · intro hpolicy
    refine ⟨?_, letsIn_run h hpolicy steps⟩
    exact counter_eq_zero (·.capacityRejected) (fun _ _ => rfl) rfl h
      (fun steps s => (letsIn_run h hpolicy steps s).nobody_refused) steps
  · intro hpolicy
    refine ⟨?_, turnsAway_run h hpolicy steps⟩
    exact counter_eq_zero (·.capacityEvicted) (fun _ _ => rfl) rfl h
      (fun steps s => (turnsAway_run h hpolicy steps s).nobody_evicted) steps

/-- The standard bounds, but for a single connection. -/
def narrow (policy : CapacityPolicy) : Config :=
  { Config.standard with maxConnections := 1, capacityPolicy := policy }

/-- A tracker of a single connection. -/
def single (policy : CapacityPolicy) : Tracker :=
  ⟨narrow policy, .everything, .empty 1 policy, {}⟩

theorem make_single (policy : CapacityPolicy) :
    make (narrow policy) .everything = .ok (single policy) :=
  rfl

/-- A second client finds the registry full. Either the first one leaves for it, or it is refused.
-/
theorem capacity_policy_single :
    make (narrow .evictOldest) .everything = .ok (single .evictOldest) ∧
      make (narrow .reject) .everything = .ok (single .reject) ∧
      ((single .evictOldest).run [Session.connect ⟨7, 3⟩]).crowds (Session.connect ⟨7, 4⟩) = true ∧
      ((single .evictOldest).run [Session.connect ⟨7, 3⟩]).LetsIn 1 (Session.connect ⟨7, 4⟩) ∧
      ((single .reject).run [Session.connect ⟨7, 3⟩]).crowds (Session.connect ⟨7, 4⟩) = true ∧
      ((single .reject).run [Session.connect ⟨7, 3⟩]).TurnsAway (Session.connect ⟨7, 4⟩) := by
  have hlets := capacity_policy (make_single .evictOldest) [Session.connect ⟨7, 3⟩]
  have hturns := capacity_policy (make_single .reject) [Session.connect ⟨7, 3⟩]
  exact ⟨make_single _, make_single _, by decide, (hlets.2.1 rfl).2 _, by decide,
    (hturns.2.2 rfl).2 _⟩

end Tracker

end FlowTrace
