import FlowTrace.Proofs.Occupancy

/-!
# Integrity — the store, its slots and its generations

The store is a map from keys to connections of these keys, with one slot for each of them.
Generations are issued in the order `1, 2, 3, …`, over all keys, so no two connections that are
tracked are of one generation as long as the words do not wrap around.

Slots are given back where connections are dropped. As every tracked connection has its slot, also
in the middle of a sweep, the count never runs below zero. And a key for which room is made is still
not tracked when its connection is stored, so no connection is ever stored over another one there.
-/

namespace FlowTrace

namespace Registry

/-- The store holds its connections apart, within a capacity, after a number of generations. -/
structure IsIntact (r : Registry) (capacity issued : Nat) : Prop where
  nodup_keys : r.keys.Nodup
  slots_eq : r.slots = r.size
  size_le : r.size ≤ capacity
  key_eq : ∀ e ∈ r.entries, e.2.id.key = e.1
  nodup_generations : (r.entries.map (·.2.id.generation)).Nodup
  nextGeneration_eq : r.nextGeneration = .ofNat (issued + 1)
  generation_le : ∀ e ∈ r.entries, e.2.id.generation.toNat ≤ issued
  /-- When the last word was issued, the next one is zero. -/
  generation_lt : issued + 1 < UInt64.size →
    ∀ e ∈ r.entries, e.2.id.generation < r.nextGeneration

/-- Whoever is dropped gives a slot back. -/
def FreesSlots (r : Registry) : Prop :=
  ∀ key, (r.find? key).isSome → (r.drop key).slots + 1 = r.slots

/-- A key for which room was made is not tracked meanwhile. -/
def StoresApart (r : Registry) : Prop :=
  ∀ key room, r.find? key = none → r.makeRoom? = some room → room.registry.find? key = none

theorem IsSound.freesSlots {r : Registry} (h : r.IsSound) : r.FreesSlots :=
  fun _ htracked => h.slots_drop htracked

theorem storesApart (r : Registry) : r.StoresApart :=
  fun _ _ huntracked hroom => (makeRoom?_within hroom).find?_eq_none huntracked

end Registry

/-! ## The generations of a run -/

namespace Chronicle

/-- The entries of the connections that begin. -/
def beginnings (h : Chronicle) : List Entry :=
  h.entries.filter (·.isNew)

/-- The incarnations begin in the order of their numbers, and none is left out. -/
theorem numbers_next {h : Chronicle}
    (hnumbers : h.beginnings.map (·.number) = List.range h.begun) (s : Step) :
    (h.next s).beginnings.map (·.number) = List.range (h.next s).begun := by
  cases hencounter : h.tracker.encounter? s with
  | none => simpa [next_of_none hencounter] using! hnumbers
  | some e =>
    have hnext : (h.next s).beginnings.map (·.number) =
        h.beginnings.map (·.number) ++ if e.isNew then [h.begun] else [] := by
      cases hnew : e.isNew <;>
        simp [next_of_encounter hencounter, beginnings, List.filter_append, hnew, entry]
    rw [hnext, hnumbers, next_of_encounter hencounter]
    cases hnew : e.isNew <;> simp [List.range_succ]

end Chronicle

/-- An incarnation begins with one of its entries. -/
theorem Life.exists_isNew {config : Config} {control : Control} {past : List Entry}
    {status : Option Connection} (h : Life config control past status) :
    ∃ e ∈ past, e.isNew = true := by
  induction h with
  | @begin e hnew _ _ _ => exact ⟨e, List.mem_singleton_self e, hnew⟩
  | meet _ _ _ _ _ _ ih =>
    rcases ih with ⟨e, he, hnew⟩
    exact ⟨e, List.mem_append_left _ he, hnew⟩

namespace Tracker

variable {config : Config} {control : Control} {t : Tracker}

/-- The identities that are issued in a run, in order. -/
def identities (t : Tracker) (steps : List Step) : List ConnectionId :=
  (t.chronicle steps).beginnings.map (·.connection.id)

theorem numbers_beginnings (h : make config control = .ok t) (steps : List Step) :
    (t.chronicle steps).beginnings.map (·.number) = List.range (t.issued steps) := by
  rw [← begun_chronicle h]
  induction steps using List.reverseRecOn with
  | nil => rfl
  | append_singleton steps s ih =>
    rw [chronicle_concat]
    exact Chronicle.numbers_next ih s

/-- The generations of a run are `1, 2, 3, …`. -/
theorem generations_identities (h : make config control = .ok t) (steps : List Step) :
    (t.identities steps).map (·.generation) =
      (List.range (t.issued steps)).map fun n => .ofNat (n + 1) := by
  have hgeneration : ∀ e ∈ (t.chronicle steps).beginnings,
      e.connection.id.generation = UInt64.ofNat (e.number + 1) := by
    intro e he
    exact (valid_chronicle h steps).generation_eq e (List.mem_filter.1 he).1
  calc
    (t.identities steps).map (·.generation)
        = (t.chronicle steps).beginnings.map (·.connection.id.generation) := by
      simp [identities]
    _ = (t.chronicle steps).beginnings.map fun e => UInt64.ofNat (e.number + 1) :=
      List.map_congr_left hgeneration
    _ = (List.range (t.issued steps)).map fun n => UInt64.ofNat (n + 1) := by
      simp [← numbers_beginnings h]

/-- Words that do not wrap around keep the order of the numbers. -/
theorem pairwise_identities (h : make config control = .ok t) {steps : List Step}
    (hfew : t.issued steps < UInt64.size) :
    (t.identities steps).Pairwise fun a b => a.generation < b.generation := by
  have hwords : ((List.range (t.issued steps)).map fun n => UInt64.ofNat (n + 1)).Pairwise
      (· < ·) := by
    refine List.pairwise_map.2 (List.pairwise_lt_range.imp_of_mem ?_)
    intro m n hm hn hlt
    have hm : (UInt64.ofNat (m + 1)).toNat = m + 1 :=
      UInt64.toNat_ofNat_of_lt' (by simp at hm; omega)
    have hn : (UInt64.ofNat (n + 1)).toNat = n + 1 :=
      UInt64.toNat_ofNat_of_lt' (by simp at hn; omega)
    rw [UInt64.lt_iff_toNat_lt, hm, hn]
    omega
  rw [← generations_identities h] at hwords
  exact List.pairwise_map.1 hwords

section Tracked

variable {steps : List Step} {key : ConnectionKey} {c : Connection}

/-- A tracked connection has one of the identities that were issued. -/
theorem id_mem_identities (h : make config control = .ok t)
    (hfound : (t.run steps).registry.find? key = some c) : c.id ∈ t.identities steps := by
  have hlife := (valid_chronicle h steps).live key c (by simpa using hfound)
  rcases hlife.exists_isNew with ⟨e, he, hnew⟩
  have hid : e.connection.id = c.id := Life.id_invariant.of_live hlife e he
  rw [← hid]
  exact List.mem_map_of_mem (List.mem_filter.2 ⟨(List.mem_filter.1 he).1, hnew⟩)

theorem toNat_generation_of_tracked (h : make config control = .ok t)
    (hfew : t.issued steps < UInt64.size) (hfound : (t.run steps).registry.find? key = some c) :
    c.id.generation.toNat = (t.chronicle steps).number key + 1 ∧
      (t.chronicle steps).number key < t.issued steps := by
  have hv := valid_chronicle h steps
  have hfound : (t.chronicle steps).tracker.registry.find? key = some c := by simpa using hfound
  have hlt := hv.number_lt_begun hfound
  rw [begun_chronicle h] at hlt
  refine ⟨?_, hlt⟩
  rw [hv.generation_of_tracked hfound]
  exact UInt64.toNat_ofNat_of_lt' (by omega)

/-- Connections of two keys are of two generations. -/
theorem generation_ne_of_ne (h : make config control = .ok t)
    (hfew : t.issued steps < UInt64.size) {other : ConnectionKey} {d : Connection}
    (hne : key ≠ other) (hfound : (t.run steps).registry.find? key = some c)
    (hfound' : (t.run steps).registry.find? other = some d) :
    c.id.generation ≠ d.id.generation := by
  intro hsame
  have hc := (toNat_generation_of_tracked h hfew hfound).1
  have hd := (toNat_generation_of_tracked h hfew hfound').1
  have hnumber : (t.chronicle steps).number key = (t.chronicle steps).number other := by
    rw [hsame] at hc
    omega
  exact hne ((valid_chronicle h steps).apart key other c d (by simpa using hfound)
    (by simpa using hfound') hnumber)

end Tracked

theorem isIntact_run (h : make config control = .ok t) {steps : List Step}
    (hfew : t.issued steps < UInt64.size) :
    (t.run steps).registry.IsIntact config.maxConnections (t.issued steps) := by
  have hsound := sound_run h steps
  have hv := valid_chronicle h steps
  have hfind : ∀ e ∈ (t.run steps).registry.entries,
      (t.run steps).registry.find? e.1 = some e.2 := by
    intro e he
    exact (Registry.mem_entries_iff hsound.nodup).1 he
  have hnext : (t.run steps).registry.nextGeneration = UInt64.ofNat (t.issued steps + 1) := by
    simpa [begun_chronicle h] using hv.next_generation
  have hsize : (t.run steps).registry.slots = (t.run steps).registry.size := hsound.size_eq.symm
  refine ⟨hsound.nodup, hsize, ?_, ?_, ?_, hnext, ?_, ?_⟩
  · rw [← hsize, ← capacity_run h steps]
    exact hsound.slots_le
  · intro e he
    exact keyed_run h steps e.1 e.2 (hfind e he)
  · -- Two entries are of two keys.
    have hkeys : (t.run steps).registry.entries.Pairwise fun e e' => e.1 ≠ e'.1 :=
      List.pairwise_map.1 hsound.nodup
    refine List.pairwise_map.2 (hkeys.imp_of_mem ?_)
    intro e e' he he' hne
    exact generation_ne_of_ne h hfew hne (hfind e he) (hfind e' he')
  · intro e he
    rcases toNat_generation_of_tracked h hfew (hfind e he) with ⟨hgeneration, hlt⟩
    omega
  · intro hroom e he
    rcases toNat_generation_of_tracked h hfew (hfind e he) with ⟨hgeneration, hlt⟩
    have hword : (UInt64.ofNat (t.issued steps + 1)).toNat = t.issued steps + 1 :=
      UInt64.toNat_ofNat_of_lt' hroom
    rw [hnext, UInt64.lt_iff_toNat_lt, hgeneration, hword]
    omega

/-- After every step of a run in which fewer generations are issued than there are words, the store
is a map from keys to connections of these keys, with one slot for each and no more than the
capacity allows. The generations of a run grow over all keys, and those of the tracked connections
are among them and different. They are below the next one as long as that is a word too: once the
last word was issued, the next one is zero. Whatever is dropped, also in the middle of a sweep,
gives a slot back that was taken, and a key for which room is made is not tracked meanwhile. -/
theorem registry_intact (h : make config control = .ok t) (steps : List Step)
    (hfew : t.issued steps < UInt64.size) :
    (t.run steps).registry.IsIntact config.maxConnections (t.issued steps) ∧
      (t.run steps).size = (t.run steps).registry.slots ∧
      (t.identities steps).length = t.issued steps ∧
      (t.identities steps).Pairwise (fun a b => a.generation < b.generation) ∧
      (∀ e ∈ (t.run steps).registry.entries, e.2.id ∈ t.identities steps) ∧
      (∀ ids, ((t.run steps).registry.removeAll ids).1.FreesSlots) ∧
      (t.run steps).registry.StoresApart := by
  have hintact := isIntact_run h hfew
  have hsound := sound_run h steps
  refine ⟨hintact, hintact.slots_eq.symm, ?_, pairwise_identities h hfew, ?_, ?_, ?_⟩
  · have hlength := congrArg List.length (generations_identities h steps)
    simpa using hlength
  · intro e he
    exact id_mem_identities h ((Registry.mem_entries_iff hsound.nodup).1 he)
  · intro ids
    exact (hsound.removeAll ids).freesSlots
  · exact Registry.storesApart _

/-- Two generations are issued in the upload. The second one is that of the connection which is left
in the end, the only one in the store. -/
theorem registry_intact_upload :
    make .standard .everything = .ok standard ∧
      standard.issued (Session.upload ⟨7, 3⟩) = 2 ∧
      (standard.run (Session.upload ⟨7, 3⟩)).registry.slots = 1 ∧
      (standard.run (Session.upload ⟨7, 3⟩)).size = 1 ∧
      (standard.run (Session.upload ⟨7, 3⟩)).registry.nextGeneration = 3 ∧
      (standard.identities (Session.upload ⟨7, 3⟩)).length = 2 := by
  have hissued : standard.issued (Session.upload ⟨7, 3⟩) = 2 := by decide +kernel
  have hslots : (standard.run (Session.upload ⟨7, 3⟩)).registry.slots = 1 := by decide +kernel
  have hfew : standard.issued (Session.upload ⟨7, 3⟩) < UInt64.size := by
    rw [hissued]
    decide
  rcases registry_intact make_standard (Session.upload ⟨7, 3⟩) hfew with
    ⟨hintact, hsize, hlength, -⟩
  have hnext := hintact.nextGeneration_eq
  rw [hissued] at hnext
  exact ⟨make_standard, hissued, hslots, hsize.trans hslots, hnext, hlength.trans hissued⟩

end Tracker

end FlowTrace
