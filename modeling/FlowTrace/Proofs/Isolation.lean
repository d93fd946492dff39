import FlowTrace.Proofs.Reissue

/-!
# Isolation — connections do not meet below capacity

While there is room for every key that a run observes, what the tracker says of one key does not
depend on the steps of the others. A run and the replay of one key's steps alone are followed side by
side: they meet the same connections under the key, but for their generations, `Mirrors`.

The generations are shared by all keys, so those of the replay are lower. Incarnation `i` of the
replay is the `i`-th one that began under the key in the run, and this keeps their order.
-/

namespace FlowTrace

/-! ## A run and its replay -/

namespace Step

/-- The steps that observe something of a key. -/
def alone (key : ConnectionKey) (steps : List Step) : List Step :=
  steps.filter (·.key? = some key)

/-- Every step observes something of one of a few keys. -/
def Among (few : Finset ConnectionKey) (steps : List Step) : Prop :=
  ∀ s ∈ steps, ∃ k ∈ few, s.key? = some k

theorem alone_concat (key : ConnectionKey) (steps : List Step) (s : Step) :
    alone key (steps ++ [s]) = alone key steps ++ if s.key? = some key then [s] else [] := by
  by_cases hkey : s.key? = some key <;> simp [alone, hkey]

namespace Among

variable {few : Finset ConnectionKey} {first rest : List Step}

theorem left (h : Among few (first ++ rest)) : Among few first :=
  fun s hs => h s (List.mem_append_left rest hs)

theorem upTo {s : Step} (h : Among few (first ++ s :: rest)) : Among few (first ++ [s]) := by
  have hsplit : Among few ((first ++ [s]) ++ rest) := by simpa using h
  exact hsplit.left

theorem append (h : Among few first) (h' : Among few rest) : Among few (first ++ rest) := by
  intro s hs
  rcases List.mem_append.1 hs with hmem | hmem
  · exact h s hmem
  · exact h' s hmem

theorem singleton {s : Step} {key : ConnectionKey} (hs : s.key? = some key) (hkey : key ∈ few) :
    Among few [s] :=
  fun _ hs' => ⟨key, hkey, List.mem_singleton.1 hs' ▸ hs⟩

theorem alone (h : Among few first) (key : ConnectionKey) : Among few (Step.alone key first) :=
  fun s hs => h s (List.mem_filter.1 hs).1

theorem key_mem (h : Among few first) {s : Step} (hmem : s ∈ first) {key : ConnectionKey}
    (hs : s.key? = some key) : key ∈ few := by
  rcases h s hmem with ⟨k, hk, hsame⟩
  rwa [Option.some.inj (hs.symm.trans hsame)]

end Among

/-- The keys that some steps observe. -/
theorem among_keys {steps : List Step} (hkeyed : ∀ s ∈ steps, s.key?.isSome) :
    Among (steps.filterMap key?).toFinset steps := by
  intro s hs
  rcases Option.isSome_iff_exists.1 (hkeyed s hs) with ⟨k, hk⟩
  exact ⟨k, List.mem_toFinset.2 (List.mem_filterMap.2 ⟨s, hs, hk⟩), hk⟩

end Step

namespace Chronicle

/-- The generation of an incarnation. -/
def generation (number : Nat) : UInt64 :=
  .ofNat (number + 1)

/-- While the words do not wrap around, they are in the order of the numbers. -/
theorem generation_lt_generation {i j issued : Nat} (hij : i < j) (hj : j < issued)
    (hissued : issued < UInt64.size) : generation i < generation j := by
  have hi : (generation i).toNat = i + 1 := UInt64.toNat_ofNat_of_lt' (by omega)
  have hj : (generation j).toNat = j + 1 := UInt64.toNat_ofNat_of_lt' (by omega)
  rw [UInt64.lt_iff_toNat_lt, hi, hj]
  omega

/-- The incarnations of a key, in the order in which they began. -/
def births (h : Chronicle) (key : ConnectionKey) : List Nat :=
  (h.entries.filter fun e => e.isNew && e.key == key).map (·.number)

/-- What a run has made of a key is what the replay of its steps has made of it, but for the
generation, and the replay counts the incarnations of the key. -/
structure Mirrors (h replay : Chronicle) (key : ConnectionKey) : Prop where
  config_eq : h.tracker.config = replay.tracker.config
  control_eq : h.tracker.control = replay.tracker.control
  find?_eq : h.tracker.registry.find? key =
    (replay.tracker.registry.find? key).map (Connection.reissued (generation (h.number key)))
  /-- There are no orders. -/
  free : ∀ c, replay.tracker.registry.find? key = some c → c.disabledUpTo = none
  length_births : (h.births key).length = replay.begun
  /-- The latest incarnations correspond. -/
  latest : 0 < replay.begun → (h.births key)[replay.number key]? = some (h.number key)

variable {h replay : Chronicle} {key : ConnectionKey} {s : Step}

theorem births_next_of_none (hnone : h.tracker.encounter? s = none) :
    (h.next s).births key = h.births key := by
  simp [births, next_of_none hnone]

theorem births_next_of_encounter {e : Encounter} (hsome : h.tracker.encounter? s = some e) :
    (h.next s).births key =
      h.births key ++ if e.isNew && e.key == key then [h.begun] else [] := by
  have hentry : (h.entry s e).number = if e.isNew then h.begun else h.number e.key := rfl
  have hsame : (h.entry s e).isNew = e.isNew ∧ (h.entry s e).key = e.key := ⟨rfl, rfl⟩
  simp only [births, next_of_encounter hsome, List.filter_append, List.map_append]
  cases hnew : e.isNew with
  | true => by_cases hkey : e.key = key <;> simp [hsame, hnew, hkey, hentry]
  | false => simp [hsame, hnew]

theorem births_next (hv : h.Valid) {e : Encounter} (hsome : h.tracker.encounter? s = some e)
    (hkey : s.key? = some key) :
    (h.next s).births key = h.births key ++ if e.isNew then [h.begun] else [] := by
  simp [births_next_of_encounter hsome, Tracker.key_of_encounter? hv.keyed hsome hkey]

/-- The key has the number of the incarnation that is met, which is a new one if it begins. -/
theorem number_next (hv : h.Valid) {e : Encounter} (hsome : h.tracker.encounter? s = some e)
    (hkey : s.key? = some key) :
    (h.next s).number key = if e.isNew then h.begun else h.number key := by
  simp [next_of_encounter hsome, entry, Tracker.key_of_encounter? hv.keyed hsome hkey]

theorem begun_next {e : Encounter} (hsome : h.tracker.encounter? s = some e) :
    (h.next s).begun = if e.isNew then h.begun + 1 else h.begun := by
  rw [next_of_encounter hsome]

namespace Mirrors

/-- Steps of other keys are not seen. -/
theorem next_of_ne (hm : h.Mirrors replay key) (hv : h.Valid) {other : ConnectionKey}
    (hother : s.key? = some other) (hne : key ≠ other)
    (hroom : h.tracker.registry.HasRoomFor other) : (h.next s).Mirrors replay key := by
  have hregistry : (h.tracker.respond s).registry.find? key = h.tracker.registry.find? key :=
    (Tracker.revises_respond hother).find?_of_ne hroom hne
  have hkept : (h.next s).number key = h.number key ∧ (h.next s).births key = h.births key := by
    cases hencounter : h.tracker.encounter? s with
    | none => exact ⟨by rw [next_of_none hencounter], births_next_of_none hencounter⟩
    | some e =>
      have hkey : e.key = other := Tracker.key_of_encounter? hv.keyed hencounter hother
      have hne' : e.key ≠ key := fun hsame => hne (hsame.symm.trans hkey)
      refine ⟨?_, ?_⟩
      · simp [next_of_encounter hencounter, Ne.symm hne']
      · simp [births_next_of_encounter hencounter, hne']
  refine ⟨?_, ?_, ?_, hm.free, ?_, ?_⟩
  · simpa using hm.config_eq
  · simpa using hm.control_eq
  · simpa [hregistry, hkept] using hm.find?_eq
  · simpa [hkept] using hm.length_births
  · simpa [hkept] using hm.latest

/-- A step of the key itself meets the same connection in both. -/
theorem encounter?_eq (hm : h.Mirrors replay key) (hv : h.Valid) (hkey : s.key? = some key)
    (hroom : h.tracker.registry.HasRoomFor key) (hroom' : replay.tracker.registry.HasRoomFor key) :
    h.tracker.encounter? s = (replay.tracker.encounter? s).map
      (Encounter.reissued (generation ((h.next s).number key))) := by
  have hsame := Tracker.encounter?_reissued hm.control_eq hkey hm.find?_eq hroom hroom'
  cases hmet : replay.tracker.encounter? s with
  | none => simpa [hmet] using hsame
  | some e =>
    have hmet' : h.tracker.encounter? s = some (e.reissued
        (if e.isNew then h.tracker.registry.nextGeneration else generation (h.number key))) := by
      simpa [hmet] using hsame
    have hnumber := number_next hv hmet' hkey
    rw [hmet', hnumber]
    cases hnew : e.isNew <;> simp [Encounter.reissued, hnew, hv.next_generation, generation]

/-- The replay meets no connection that has orders. -/
theorem free_of_encounter? (hm : h.Mirrors replay key) (hv' : replay.Valid) {e : Encounter}
    (hmet : replay.tracker.encounter? s = some e) (hkey : e.key = key) :
    e.connection.disabledUpTo = none := by
  have hmeets := hv'.meets hmet
  cases hnew : e.isNew with
  | true =>
    rcases (hmeets.birth hnew).1.exists_start with ⟨address, role, hstart⟩
    rw [hstart]
    rfl
  | false => exact hm.free _ (hkey ▸ (hmeets.found hnew).2.1)

/-- A step that meets nothing leaves everything as it is. -/
theorem next_of_none (hm : h.Mirrors replay key) (hkey : s.key? = some key)
    (hmet : h.tracker.encounter? s = none) (hmet' : replay.tracker.encounter? s = none) :
    (h.next s).Mirrors (replay.next s) key := by
  have hkept := Tracker.registry_respond_of_none hkey hmet
  have hkept' := Tracker.registry_respond_of_none hkey hmet'
  have hbirths : (h.next s).births key = h.births key := births_next_of_none hmet
  have hnumber : (h.next s).number = h.number := by rw [Chronicle.next_of_none hmet]
  have hreplay : (replay.next s).number = replay.number ∧ (replay.next s).begun = replay.begun := by
    rw [Chronicle.next_of_none hmet']
    exact ⟨rfl, rfl⟩
  refine ⟨?_, ?_, ?_, ?_, ?_, ?_⟩
  · simpa using hm.config_eq
  · simpa using hm.control_eq
  · simpa [hkept, hkept', hnumber] using hm.find?_eq
  · simpa [hkept'] using hm.free
  · simpa [hbirths, hreplay] using hm.length_births
  · simpa [hbirths, hnumber, hreplay] using hm.latest

/-- The same befalls the two connections that a step meets. -/
theorem next_of_some (hm : h.Mirrors replay key) (hv : h.Valid) (hv' : replay.Valid)
    (hkey : s.key? = some key) {e : Encounter} (hmet' : replay.tracker.encounter? s = some e)
    (hmet : h.tracker.encounter? s =
      some (e.reissued (generation ((h.next s).number key)))) :
    (h.next s).Mirrors (replay.next s) key := by
  have hmeets := hv.meets hmet
  have hmeets' := hv'.meets hmet'
  have hekey : e.key = key := Tracker.key_of_encounter? hv'.keyed hmet' hkey
  have hfree : e.connection.disabledUpTo = none := hm.free_of_encounter? hv' hmet' hekey
  -- Both connections begin here, or neither does.
  have hbirths : (h.next s).births key = h.births key ++ if e.isNew then [h.begun] else [] :=
    (births_next hv hmet hkey :)
  have hnumber : (h.next s).number key = if e.isNew then h.begun else h.number key :=
    (number_next hv hmet hkey :)
  have hnumber' : (replay.next s).number key = if e.isNew then replay.begun else replay.number key :=
    number_next hv' hmet' hkey
  have hbegun' : (replay.next s).begun = if e.isNew then replay.begun + 1 else replay.begun :=
    begun_next hmet'
  have hfind : (h.tracker.respond s).registry.find? key =
      (e.reissued (generation ((h.next s).number key))).after? h.tracker.config
        h.tracker.control := hekey ▸ hmeets.find?_key
  have hfind' : (replay.tracker.respond s).registry.find? key =
      e.after? replay.tracker.config replay.tracker.control := hekey ▸ hmeets'.find?_key
  refine ⟨?_, ?_, ?_, ?_, ?_, ?_⟩
  · simpa using hm.config_eq
  · simpa using hm.control_eq
  · simp [hfind, hfind', Encounter.after?_reissued hfree, hm.config_eq, hm.control_eq]
  · -- An observation writes no orders.
    intro c hfound
    have hafter : e.after? replay.tracker.config replay.tracker.control = some c := by
      simpa [hfind'] using hfound
    rw [(Encounter.of_after? hafter).2]
    exact (Connection.disabledUpTo_undergo _ (Tracker.not_order hmet' hkey)).trans hfree
  · cases hnew : e.isNew <;> simp [hbirths, hbegun', hnew, hm.length_births]
  · cases hnew : e.isNew with
    | true =>
      -- The new incarnation is the last one of the run, and that of the replay counts those before.
      simp [hbirths, hnumber, hnumber', hnew, ← hm.length_births]
    | false => simpa [hbirths, hnumber, hnumber', hbegun', hnew] using hm.latest

/-- The replay takes a step of the key, and says the same of it. -/
theorem next_of_eq (hm : h.Mirrors replay key) (hv : h.Valid) (hv' : replay.Valid)
    (hkey : s.key? = some key) (hroom : h.tracker.registry.HasRoomFor key)
    (hroom' : replay.tracker.registry.HasRoomFor key) :
    (h.next s).Mirrors (replay.next s) key ∧
      (h.tracker.respond s).events = (replay.tracker.respond s).events.map
        (Event.reissued (generation ((h.next s).number key))) := by
  have hsame := hm.encounter?_eq hv hkey hroom hroom'
  cases hmet' : replay.tracker.encounter? s with
  | none =>
    have hmet : h.tracker.encounter? s = none := by simpa [hmet'] using hsame
    have hsilent : (h.tracker.respond s).events = [] := (hv.passes hmet).events_eq
    have hsilent' : (replay.tracker.respond s).events = [] := (hv'.passes hmet').events_eq
    exact ⟨hm.next_of_none hkey hmet hmet', by simp [hsilent, hsilent']⟩
  | some e =>
    have hmet : h.tracker.encounter? s =
        some (e.reissued (generation ((h.next s).number key))) := by simpa [hmet'] using hsame
    have hekey : e.key = key := Tracker.key_of_encounter? hv'.keyed hmet' hkey
    have hfree : e.connection.disabledUpTo = none := hm.free_of_encounter? hv' hmet' hekey
    refine ⟨hm.next_of_some hv hv' hkey hmet' hmet, ?_⟩
    calc
      (h.tracker.respond s).events
          = ((e.reissued (generation ((h.next s).number key))).reaction h.tracker.config
              h.tracker.control).events := (hv.meets hmet).events_eq
      _ = (e.reaction h.tracker.config h.tracker.control).events.map
            (Event.reissued (generation ((h.next s).number key))) :=
          (Connection.undergo_reissued _ _ _ hfree e.incident).2
      _ = (replay.tracker.respond s).events.map
            (Event.reissued (generation ((h.next s).number key))) := by
          rw [hm.config_eq, hm.control_eq, (hv'.meets hmet').events_eq]

end Mirrors

/-! ## Numbers and generations -/

/-- What is said of a key is said of the incarnation that it is tracked as. -/
theorem Valid.generation_of_event (hv : h.Valid) (hkey : s.key? = some key) {x : Event}
    (hx : x ∈ (h.tracker.respond s).events) :
    x.id.generation = generation ((h.next s).number key) := by
  cases hmet : h.tracker.encounter? s with
  | none =>
    rw [(hv.passes hmet).events_eq] at hx
    cases hx
  | some e =>
    have hmeets := hv.meets hmet
    rw [hmeets.events_eq] at hx
    have hid : x.id = e.connection.id := Connection.id_of_mem_undergo _ _ _ _ x hx
    rw [hid, hv.generation_entry hmeets, number_next hv hmet hkey, ←
      Tracker.key_of_encounter? hv.keyed hmet hkey]
    rfl

/-- Before anything has begun there is nothing to be said. -/
theorem Valid.events_of_begun_eq_zero (hv : h.Valid) (hzero : (h.next s).begun = 0) :
    (h.tracker.respond s).events = [] := by
  have hnone : (h.next s).entries = [] := by
    apply List.eq_nil_iff_forall_not_mem.2
    intro e he
    have hlt := (hv.next s).number_lt e he
    omega
  have hevents := hv.events_next s
  rw [hnone] at hevents
  exact (List.append_eq_nil_iff.1 hevents.symm).2

theorem Valid.lt_begun_of_mem_births (hv : h.Valid) {n : Nat} (hn : n ∈ h.births key) :
    n < h.begun := by
  rcases List.mem_map.1 hn with ⟨e, he, rfl⟩
  exact hv.number_lt e (List.mem_filter.1 he).1

theorem Valid.pairwise_births_next (hv : h.Valid) (hp : (h.births key).Pairwise (· < ·)) (s : Step) :
    ((h.next s).births key).Pairwise (· < ·) := by
  cases hmet : h.tracker.encounter? s with
  | none => simpa [births_next_of_none hmet] using hp
  | some e =>
    rw [births_next_of_encounter hmet]
    split
    · -- A new number is above all that were given before.
      refine List.pairwise_append.2 ⟨hp, List.pairwise_singleton _ _, ?_⟩
      intro n hn m hm
      rw [List.mem_singleton.1 hm]
      exact hv.lt_begun_of_mem_births hn
    · simpa using hp

theorem Extends.births_eq {later : List Entry} {h' : Chronicle} (hext : h.Extends h' later)
    (key : ConnectionKey) : ∃ more, h'.births key = h.births key ++ more := by
  refine ⟨(later.filter fun e => e.isNew && e.key == key).map (·.number), ?_⟩
  simp [births, hext.entries_eq]

end Chronicle

/-! ## Runs -/

/-- Events of incarnation `n`, and the same of incarnation `m`. -/
def Event.Renamed (n m : Nat) (xs ys : List Event) : Prop :=
  (∀ x ∈ xs, x.id.generation = Chronicle.generation n) ∧
    ys = xs.map (reissued (Chronicle.generation m))

/-- What is shown of a key while it is tracked as incarnation `n`, and the same of incarnation `m`. -/
def Connection.Snapshot.Renamed (n m : Nat) (x? y? : Option Snapshot) : Prop :=
  (∀ x ∈ x?, x.id.generation = Chronicle.generation n) ∧
    y? = x?.map (reissued (Chronicle.generation m))

/-- The events, whatever their generations are. -/
def Event.unnumbered (xs : List Event) : List Event :=
  xs.map (reissued 0)

theorem Event.unnumbered_map_reissued (g : UInt64) (xs : List Event) :
    unnumbered (xs.map (reissued g)) = unnumbered xs := by
  simp [unnumbered, Function.comp_def]

/-- Two clients connect, and each sends a request. -/
def Session.interleaved : List Step :=
  [connect ⟨7, 3⟩, connect ⟨7, 4⟩, request ⟨7, 4⟩, request ⟨7, 3⟩]

namespace Tracker

variable {config : Config} {control : Control} {t : Tracker}

/-- The incarnation that a key was last tracked as, in the order in which they begin. -/
def incarnation (t : Tracker) (steps : List Step) (key : ConnectionKey) : Nat :=
  (t.chronicle steps).number key

theorem pairwise_births (h : make config control = .ok t) (steps : List Step)
    (key : ConnectionKey) : ((t.chronicle steps).births key).Pairwise (· < ·) := by
  induction steps using List.reverseRecOn with
  | nil => exact List.Pairwise.nil
  | append_singleton steps s ih =>
    rw [chronicle_concat]
    exact (valid_chronicle h steps).pairwise_births_next ih s

/-- The incarnation that was the `i`-th one to begin under a key. -/
def nth (t : Tracker) (steps : List Step) (key : ConnectionKey) (i : Nat) : Nat :=
  ((t.chronicle steps).births key).getD i 0

theorem exists_births_append (t : Tracker) (first rest : List Step) (key : ConnectionKey) :
    ∃ more, (t.chronicle (first ++ rest)).births key = (t.chronicle first).births key ++ more := by
  rcases (t.chronicle first).exists_extends rest with ⟨later, hext⟩
  rw [← chronicle_append] at hext
  exact hext.births_eq key

theorem nth_lt_nth (h : make config control = .ok t) {steps : List Step} {key : ConnectionKey}
    {i j : Nat} (hij : i < j) (hj : j < ((t.chronicle steps).births key).length) :
    t.nth steps key i < t.nth steps key j := by
  have hlt := List.pairwise_iff_getElem.1 (pairwise_births h steps key) i j (hij.trans hj) hj hij
  simpa [nth, List.getD_eq_getElem?_getD, hj, hij.trans hj] using hlt

theorem nth_lt_issued (h : make config control = .ok t) {steps : List Step} {key : ConnectionKey}
    {i : Nat} (hi : i < ((t.chronicle steps).births key).length) :
    t.nth steps key i < t.issued steps := by
  have hmem : ((t.chronicle steps).births key)[i] ∈ (t.chronicle steps).births key :=
    List.getElem_mem hi
  have hlt := (valid_chronicle h steps).lt_begun_of_mem_births hmem
  simpa [nth, List.getD_eq_getElem?_getD, hi, begun_chronicle h] using hlt

/-- There are no more incarnations of a key than there are of all keys. -/
theorem length_births_le (h : make config control = .ok t) (steps : List Step)
    (key : ConnectionKey) : ((t.chronicle steps).births key).length ≤ t.issued steps := by
  have hnodup : ((t.chronicle steps).births key).Nodup :=
    (pairwise_births h steps key).imp fun hlt => Nat.ne_of_lt hlt
  -- They are different numbers below the count of all.
  have hsubset : (t.chronicle steps).births key ⊆ List.range (t.issued steps) := by
    intro n hn
    rw [List.mem_range, ← begun_chronicle h]
    exact (valid_chronicle h steps).lt_begun_of_mem_births hn
  simpa using (List.subperm_of_subset hnodup hsubset).length_le

section Few

variable (h : make config control = .ok t) {few : Finset ConnectionKey}
  (hfew : few.card ≤ config.maxConnections)

include h hfew

theorem hasRoomFor {steps : List Step} (hsteps : Step.Among few steps) {key : ConnectionKey}
    (hkey : key ∈ few) : (t.run steps).registry.HasRoomFor key :=
  hasRoomFor_of_few h hfew (fun _ hs _ hk => hsteps.key_mem hs hk) hkey

/-- What is said of a key is what the replay says. -/
theorem mirrors_next {steps : List Step} (hsteps : Step.Among few steps) {key : ConnectionKey}
    {s : Step} (hm : (t.chronicle steps).Mirrors (t.chronicle (Step.alone key steps)) key)
    (hs : s.key? = some key) (hkey : key ∈ few) :
    ((t.chronicle steps).next s).Mirrors ((t.chronicle (Step.alone key steps)).next s) key ∧
      ((t.run steps).respond s).events =
        ((t.run (Step.alone key steps)).respond s).events.map
          (Event.reissued (Chronicle.generation (t.incarnation (steps ++ [s]) key))) := by
  have hroom : (t.run steps).registry.HasRoomFor key := hasRoomFor h hfew hsteps hkey
  have hroom' : (t.run (Step.alone key steps)).registry.HasRoomFor key :=
    hasRoomFor h hfew (hsteps.alone key) hkey
  have hnext := hm.next_of_eq (valid_chronicle h steps) (valid_chronicle h _) hs
    (by simpa using hroom) (by simpa using hroom')
  simpa [incarnation, chronicle_concat] using hnext

/-- A run and the replay of one key's steps go side by side. -/
theorem mirrors_chronicle {steps : List Step} (hsteps : Step.Among few steps)
    (key : ConnectionKey) :
    (t.chronicle steps).Mirrors (t.chronicle (Step.alone key steps)) key := by
  induction steps using List.reverseRecOn with
  | nil =>
    rcases make_eq_ok h with ⟨rfl, -, -⟩
    refine ⟨rfl, rfl, rfl, ?_, rfl, ?_⟩
    · intro c hfound
      cases hfound
    · intro hbegun
      cases hbegun
  | append_singleton steps s ih =>
    have hm := ih hsteps.left
    rcases hsteps s (by simp) with ⟨k, hk, hs⟩
    rw [Step.alone_concat, chronicle_concat]
    by_cases hkey : k = key
    · subst hkey
      simpa [hs, chronicle_concat] using (mirrors_next h hfew hsteps.left hm hs hk).1
    · -- The replay does not take the step at all.
      have hroom : (t.run steps).registry.HasRoomFor k := hasRoomFor h hfew hsteps.left hk
      have hother : ¬s.key? = some key := by
        rw [hs]
        exact fun hsame => hkey (Option.some.inj hsame)
      rw [if_neg hother, List.append_nil]
      exact hm.next_of_ne (valid_chronicle h steps) hs (Ne.symm hkey) (by simpa using hroom)

/-- The events of an observation are those of the replay, but for their generation. -/
theorem events_alone {steps : List Step} (hsteps : Step.Among few steps) {key : ConnectionKey}
    {s : Step} (hs : s.key? = some key) (hkey : key ∈ few) :
    ((t.run steps).respond s).events =
      ((t.run (Step.alone key steps)).respond s).events.map
        (Event.reissued (Chronicle.generation (t.incarnation (steps ++ [s]) key))) :=
  (mirrors_next h hfew hsteps (mirrors_chronicle h hfew hsteps key) hs hkey).2

/-- An observation of one key does not change what the next one of another key is told. -/
theorem unnumbered_events_of_ne {steps : List Step} (hsteps : Step.Among few steps) {a b : Step}
    {key other : ConnectionKey} (ha : a.key? = some key) (hb : b.key? = some other)
    (hne : other ≠ key) (hkey : key ∈ few) (hother : other ∈ few) :
    Event.unnumbered ((t.run (steps ++ [b])).respond a).events =
      Event.unnumbered ((t.run steps).respond a).events := by
  have hsteps' : Step.Among few (steps ++ [b]) := hsteps.append (.singleton hb hother)
  -- Both runs have the same replay.
  have halone : Step.alone key (steps ++ [b]) = Step.alone key steps := by
    simp [Step.alone_concat, hb, hne]
  calc
    Event.unnumbered ((t.run (steps ++ [b])).respond a).events
        = Event.unnumbered ((t.run (Step.alone key (steps ++ [b]))).respond a).events := by
      simp only [events_alone h hfew hsteps' ha hkey, Event.unnumbered_map_reissued]
    _ = Event.unnumbered ((t.run (Step.alone key steps)).respond a).events := by rw [halone]
    _ = Event.unnumbered ((t.run steps).respond a).events := by
      simp only [events_alone h hfew hsteps ha hkey, Event.unnumbered_map_reissued]

theorem length_births {steps : List Step} (hsteps : Step.Among few steps) (key : ConnectionKey) :
    ((t.chronicle steps).births key).length = t.issued (Step.alone key steps) :=
  (mirrors_chronicle h hfew hsteps key).length_births.trans (begun_chronicle h _)

/-- The incarnations that a run and the replay are in. -/
theorem nth_incarnation {first : List Step} (hfirst : Step.Among few first) (rest : List Step)
    {key : ConnectionKey} (hbegun : 0 < (t.chronicle (Step.alone key first)).begun) :
    t.nth (first ++ rest) key (t.incarnation (Step.alone key first) key) =
      t.incarnation first key := by
  have hlatest := (mirrors_chronicle h hfew hfirst key).latest hbegun
  rcases List.getElem?_eq_some_iff.1 hlatest with ⟨hlt, hnth⟩
  -- Later births are put after the earlier ones.
  rcases exists_births_append t first rest key with ⟨more, hbirths⟩
  simp only [nth, incarnation, hbirths, List.getD_eq_getElem?_getD]
  rw [List.getElem?_append_left hlt, hlatest, Option.getD_some]

/-- What is shown of a key is what the replay shows. -/
theorem connection?_alone {first rest : List Step} (hfirst : Step.Among few first)
    (key : ConnectionKey) :
    Connection.Snapshot.Renamed (t.incarnation (Step.alone key first) key)
      (t.nth (first ++ rest) key (t.incarnation (Step.alone key first) key))
      ((t.run (Step.alone key first)).connection? key) ((t.run first).connection? key) := by
  have hv' := valid_chronicle h (Step.alone key first)
  have hfind : (t.run first).registry.find? key =
      ((t.run (Step.alone key first)).registry.find? key).map
        (Connection.reissued (Chronicle.generation (t.incarnation first key))) := by
    simpa [incarnation] using (mirrors_chronicle h hfew hfirst key).find?_eq
  cases hreplay : (t.run (Step.alone key first)).registry.find? key with
  | none => simp [Connection.Snapshot.Renamed, connection?, hfind, hreplay]
  | some c =>
    have hfound : (t.chronicle (Step.alone key first)).tracker.registry.find? key = some c := by
      simpa using hreplay
    have hgeneration : c.id.generation =
        Chronicle.generation (t.incarnation (Step.alone key first) key) :=
      hv'.generation_of_tracked hfound
    -- Something is tracked, so something has begun.
    have hbegun := Nat.zero_lt_of_lt (hv'.number_lt_begun hfound)
    have hnth := nth_incarnation h hfew hfirst rest hbegun
    refine ⟨?_, ?_⟩
    · intro x hx
      have hx' : c.snapshot = x := by simpa [connection?, hreplay] using hx
      rw [← hx']
      exact hgeneration
    · simp [connection?, hfind, hreplay, hnth]
      rfl

/-- What is said of a key is what the replay says. -/
theorem events_renamed {first rest : List Step} {s : Step}
    (hfirst : Step.Among few (first ++ [s])) {key : ConnectionKey} (hs : s.key? = some key) :
    Event.Renamed (t.incarnation (Step.alone key (first ++ [s])) key)
      (t.nth (first ++ s :: rest) key (t.incarnation (Step.alone key (first ++ [s])) key))
      ((t.run (Step.alone key first)).respond s).events ((t.run first).respond s).events := by
  have hv' := valid_chronicle h (Step.alone key first)
  have hsame := events_alone h hfew hfirst.left hs (hfirst.key_mem (by simp) hs)
  have hreplay : t.chronicle (Step.alone key (first ++ [s])) =
      (t.chronicle (Step.alone key first)).next s := by
    simp [Step.alone_concat, hs, chronicle_concat]
  refine ⟨?_, ?_⟩
  · intro x hx
    have hx' : x ∈ ((t.chronicle (Step.alone key first)).tracker.respond s).events := by
      simpa using hx
    simpa [incarnation, hreplay] using hv'.generation_of_event hs hx'
  · -- If nothing has begun by now, there is nothing to rename.
    cases hbegun : (t.chronicle (Step.alone key (first ++ [s]))).begun with
    | zero =>
      have hsilent : ((t.run (Step.alone key first)).respond s).events = [] := by
        simpa using hv'.events_of_begun_eq_zero (hreplay ▸ hbegun)
      simp [hsame, hsilent]
    | succ n =>
      have hpositive : 0 < (t.chronicle (Step.alone key (first ++ [s]))).begun := by
        rw [hbegun]
        exact Nat.succ_pos n
      have hnth : t.nth (first ++ s :: rest) key
          (t.incarnation (Step.alone key (first ++ [s])) key) = t.incarnation (first ++ [s]) key := by
        simpa using nth_incarnation h hfew hfirst rest hpositive
      rw [hsame, hnth]

end Few

/-- Let a run observe no more keys than there is capacity. What it says of a key, and shows of it at
any moment, is what the replay of this key's steps alone says and shows, with each generation of the
replay replaced by another one, in the same order. So what a step is told does not depend on the step
of another key right before it, but for the generations. -/
theorem replays_alone (h : make config control = .ok t) {steps : List Step}
    (hkeyed : ∀ s ∈ steps, s.key?.isSome)
    (hfew : (steps.filterMap Step.key?).toFinset.card ≤ config.maxConnections) :
    (∀ key, ∃ ρ : Nat → Nat,
      (∀ i j, i < j → j < t.issued (Step.alone key steps) → ρ i < ρ j) ∧
      (∀ i, i < t.issued (Step.alone key steps) → ρ i < t.issued steps) ∧
      (t.issued steps < UInt64.size → ∀ i j, i < j → j < t.issued (Step.alone key steps) →
        Chronicle.generation i < Chronicle.generation j ∧
          Chronicle.generation (ρ i) < Chronicle.generation (ρ j)) ∧
      (∀ first rest, steps = first ++ rest →
        Connection.Snapshot.Renamed (t.incarnation (Step.alone key first) key)
          (ρ (t.incarnation (Step.alone key first) key))
          ((t.run (Step.alone key first)).connection? key) ((t.run first).connection? key)) ∧
      ∀ first s rest, steps = first ++ s :: rest → s.key? = some key →
        Event.Renamed (t.incarnation (Step.alone key (first ++ [s])) key)
          (ρ (t.incarnation (Step.alone key (first ++ [s])) key))
          ((t.run (Step.alone key first)).respond s).events ((t.run first).respond s).events) ∧
    ∀ first a b rest, steps = first ++ a :: b :: rest → a.key? ≠ b.key? →
      Event.unnumbered ((t.run (first ++ [b])).respond a).events =
          Event.unnumbered ((t.run first).respond a).events ∧
        Event.unnumbered ((t.run (first ++ [a])).respond b).events =
          Event.unnumbered ((t.run first).respond b).events := by
  have hsteps := Step.among_keys hkeyed
  refine ⟨?_, ?_⟩
  · intro key
    have hlength := length_births h hfew hsteps key
    refine ⟨t.nth steps key, ?_, ?_, ?_, ?_, ?_⟩
    · intro i j hij hj
      exact nth_lt_nth h hij (hlength ▸ hj)
    · intro i hi
      exact nth_lt_issued h (hlength ▸ hi)
    · intro hfits i j hij hj
      rw [← hlength] at hj
      have hj' := hj.trans_le (length_births_le h steps key)
      exact ⟨Chronicle.generation_lt_generation hij hj' hfits,
        Chronicle.generation_lt_generation (nth_lt_nth h hij hj) (nth_lt_issued h hj) hfits⟩
    · rintro first rest rfl
      exact connection?_alone h hfew hsteps.left key
    · rintro first s rest rfl hs
      exact events_renamed h hfew hsteps.upTo hs
  · rintro first a b rest rfl hne
    rcases hsteps a (by simp) with ⟨k, hk, ha⟩
    rcases hsteps b (by simp) with ⟨k', hk', hb⟩
    have hkeys : k' ≠ k := by
      rintro rfl
      exact hne (ha.trans hb.symm)
    exact ⟨unnumbered_events_of_ne h hfew hsteps.left ha hb hkeys hk hk',
      unnumbered_events_of_ne h hfew hsteps.left hb ha (Ne.symm hkeys) hk' hk⟩

/-- Two connections of one process. The second one gets the second generation, and the replay of its
steps alone gives it the first. -/
theorem replays_alone_interleaved :
    make .standard .everything = .ok standard ∧
      (∀ s ∈ Session.interleaved, s.key?.isSome) ∧
      (Session.interleaved.filterMap Step.key?).toFinset.card ≤ Config.standard.maxConnections ∧
      ((standard.run Session.interleaved).connection? ⟨7, 4⟩).map (·.id.generation) = some 2 ∧
      ((standard.run (Step.alone ⟨7, 4⟩ Session.interleaved)).connection? ⟨7, 4⟩).map
        (·.id.generation) = some 1 ∧
      (∃ g, (standard.run Session.interleaved).connection? ⟨7, 4⟩ =
        ((standard.run (Step.alone ⟨7, 4⟩ Session.interleaved)).connection? ⟨7, 4⟩).map
          (·.reissued g)) ∧
      Event.unnumbered ((standard.run ([Session.connect ⟨7, 3⟩, Session.connect ⟨7, 4⟩] ++
          [Session.request ⟨7, 3⟩])).respond (Session.request ⟨7, 4⟩)).events =
        Event.unnumbered ((standard.run [Session.connect ⟨7, 3⟩, Session.connect ⟨7, 4⟩]).respond
          (Session.request ⟨7, 4⟩)).events := by
  have hkeyed : ∀ s ∈ Session.interleaved, s.key?.isSome := by decide
  have hfew : (Session.interleaved.filterMap Step.key?).toFinset.card ≤
      Config.standard.maxConnections := by decide +kernel
  have hsecond : ((standard.run Session.interleaved).connection? ⟨7, 4⟩).map (·.id.generation) =
      some 2 := by decide +kernel
  have hfirst : ((standard.run (Step.alone ⟨7, 4⟩ Session.interleaved)).connection? ⟨7, 4⟩).map
      (·.id.generation) = some 1 := by decide +kernel
  rcases replays_alone make_standard hkeyed hfew with ⟨hreplays, hswap⟩
  rcases hreplays ⟨7, 4⟩ with ⟨ρ, -, -, -, hshown, -⟩
  have hsame := (hshown Session.interleaved [] (List.append_nil _).symm).2
  have hapart : (Session.request ⟨7, 4⟩).key? ≠ (Session.request ⟨7, 3⟩).key? := by decide
  have hswapped := (hswap [Session.connect ⟨7, 3⟩, Session.connect ⟨7, 4⟩] _ _ [] rfl hapart).1
  exact ⟨make_standard, hkeyed, hfew, hsecond, hfirst, ⟨_, hsame⟩, hswapped⟩

end Tracker

end FlowTrace
