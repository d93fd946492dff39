import FlowTrace.Proofs.Ledger

/-!
# Sweep — a sweep removes the incarnations it names, and no others

A sweep goes through its identities one by one, and what it says of one depends on those before it:
an incarnation that is named twice is removed first and missing then. Which connections are left
does not depend on the order. `Registry.without` is what is left, as a set would have it, and
`removeAll_fst` is the induction over the identities that proves it. It rests on each key being
stored once: an identity that names another incarnation of a key names nothing that is stored.

A sweep takes up a bounded number of identities and leaves the others aside. So a long list may be
swept in slices, and what is left in the end is what one sweep of the whole list would leave.
-/

namespace FlowTrace

namespace Registry

/-- Whether an entry is one of the incarnations that are named. When its process has started does not
matter. -/
def isNamed (ids : List ConnectionId) (e : ConnectionKey × Connection) : Bool :=
  ids.any fun id => id.key == e.1 && id.generation == e.2.id.generation

/-- The registry without the incarnations that are named. -/
def without (r : Registry) (ids : List ConnectionId) : Registry :=
  { r with
    entries := r.entries.filter (!isNamed ids ·)
    slots := (r.entries.filter (!isNamed ids ·)).length }

section Named

variable (r : Registry) (ids ids' : List ConnectionId)

theorem isNamed_iff (e : ConnectionKey × Connection) :
    isNamed ids e = true ↔ ∃ id ∈ ids, id.key = e.1 ∧ id.generation = e.2.id.generation := by
  simp [isNamed]

theorem isNamed_append (e : ConnectionKey × Connection) :
    isNamed (ids ++ ids') e = (isNamed ids e || isNamed ids' e) :=
  List.any_append

/-- In which order incarnations are named does not matter, nor how often. -/
theorem isNamed_congr {ids ids' : List ConnectionId} (h : ∀ id, id ∈ ids ↔ id ∈ ids') :
    isNamed ids = isNamed ids' := by
  funext e
  rw [Bool.eq_iff_iff, isNamed_iff, isNamed_iff]
  simp only [h]

theorem without_without : (r.without ids).without ids' = r.without (ids ++ ids') := by
  simp [without, List.filter_filter, isNamed_append, Bool.and_comm]

/-- Some leave, and the others stay. -/
theorem size_without : (r.without ids).size + r.entries.countP (isNamed ids) = r.size := by
  have hsplit := List.length_eq_length_filter_add (l := r.entries) (isNamed ids)
  rw [← List.countP_eq_length_filter] at hsplit
  simp only [size, without]
  omega

end Named

section Sound

variable {r : Registry} (hsound : r.IsSound)
include hsound

/-- What is found under a key is left there, unless it is named. -/
theorem find?_without (ids : List ConnectionId) (key : ConnectionKey) (c : Connection) :
    (r.without ids).find? key = some c ↔
      r.find? key = some c ∧
        ∀ id ∈ ids, id.key = key → id.generation ≠ c.id.generation := by
  -- Whatever is left out, each key is stored once.
  have hnodup : (r.without ids).keys.Nodup :=
    hsound.nodup.sublist (List.Sublist.map Prod.fst List.filter_sublist)
  rw [← mem_entries_iff hnodup, ← mem_entries_iff hsound.nodup]
  simp [without, isNamed]

/-- Only the entry of its key can be named, and is named if it is this incarnation. -/
theorem entries_removeIncarnation (id : ConnectionId) :
    (r.removeIncarnation id).1.entries = r.entries.filter (!isNamed [id] ·) := by
  have hstored : ∀ e ∈ r.entries, r.find? e.1 = some e.2 := fun e he =>
    (mem_entries_iff hsound.nodup).1 he
  have hnamed : ∀ e, isNamed [id] e = true ↔ id.key = e.1 ∧ id.generation = e.2.id.generation := by
    simp [isNamed]
  -- Nothing is named unless it is stored under the key.
  have hkept : (∀ c, r.find? id.key = some c → c.id.generation ≠ id.generation) →
      r.entries = r.entries.filter (!isNamed [id] ·) := by
    intro hother
    refine (List.filter_eq_self.2 fun e he => ?_).symm
    have hfound := hstored e he
    simp only [Bool.not_eq_true', ← Bool.not_eq_true, hnamed]
    rintro ⟨hkey, hgeneration⟩
    exact hother e.2 (hkey ▸ hfound) hgeneration.symm
  unfold removeIncarnation
  split
  · next c hfound =>
    split
    · next hsame =>
      refine List.filter_congr fun e he => ?_
      have hstored := hstored e he
      rw [Bool.eq_iff_iff, bne_iff_ne, Bool.not_eq_true', ← Bool.not_eq_true, hnamed]
      refine not_congr ⟨?_, fun h => h.1.symm⟩
      intro hkey
      rw [hkey, hfound] at hstored
      cases hstored
      exact ⟨hkey.symm, hsame.symm⟩
    · next hother =>
      refine hkept fun c' hc' => ?_
      cases hfound.symm.trans hc'
      exact hother
  · next hnone =>
    refine hkept fun c hc => ?_
    cases hnone.symm.trans hc

theorem entries_removeAll (ids : List ConnectionId) :
    (r.removeAll ids).1.entries = r.entries.filter (!isNamed ids ·) := by
  induction ids generalizing r with
  | nil => exact (List.filter_eq_self.2 fun _ _ => rfl).symm
  | cons id ids ih =>
    have hfirst := entries_removeIncarnation hsound id
    have hrest := ih (hsound.removeIncarnation id)
    have hnamed : ∀ e, isNamed (id :: ids) e = (isNamed [id] e || isNamed ids e) :=
      isNamed_append [id] ids
    calc
      (r.removeAll (id :: ids)).1.entries
          = (r.entries.filter (!isNamed [id] ·)).filter (!isNamed ids ·) := by
        rw [← hfirst]
        exact hrest
      _ = r.entries.filter (!isNamed (id :: ids) ·) := by
        simp [List.filter_filter, hnamed, Bool.and_comm]

/-- A sweep leaves what is not named. -/
theorem removeAll_fst (ids : List ConnectionId) : (r.removeAll ids).1 = r.without ids := by
  have hentries := entries_removeAll hsound ids
  have hslots : (r.removeAll ids).1.slots = (r.entries.filter (!isNamed ids ·)).length := by
    rw [← (hsound.removeAll ids).size_eq, size, hentries]
  have hbounds := Prod.mk.inj (bounds_removeAll r ids)
  calc
    (r.removeAll ids).1
        = ⟨(r.removeAll ids).1.entries, (r.removeAll ids).1.slots, (r.removeAll ids).1.capacity,
            (r.removeAll ids).1.policy, (r.removeAll ids).1.nextGeneration⟩ := rfl
    _ = r.without ids := by
      rw [hentries, hslots, hbounds.1, hbounds.2, nextGeneration_removeAll]
      rfl

/-- As many are removed as are named. -/
theorem count_removed_removeAll (ids : List ConnectionId) :
    (r.removeAll ids).2.count .removed = r.entries.countP (isNamed ids) := by
  -- A slot is given back for each that is removed, and what is left are those that are not named.
  have hslots := slots_removeAll hsound ids
  have hsize := size_without r ids
  rw [← (hsound.removeAll ids).size_eq, ← hsound.size_eq, removeAll_fst hsound] at hslots
  omega

end Sound

/-- Something comes of the removal of each identity. -/
theorem count_removeAll (r : Registry) (ids : List ConnectionId) :
    (r.removeAll ids).2.count .removed + (r.removeAll ids).2.count .stale +
      (r.removeAll ids).2.count .missing = ids.length := by
  induction ids generalizing r with
  | nil => rfl
  | cons id ids ih =>
    have hrest := ih (r.removeIncarnation id).1
    simp only [removeAll, List.count_cons, List.length_cons]
    cases (r.removeIncarnation id).2 <;> simp <;> omega

end Registry

/-! ## Sweeps -/

/-- The reader of the events is done with these connections. -/
def Step.sweep (ids : List ConnectionId) : Step :=
  .observe (.cleanup ids)

/-- How many connections a sweep says it has removed. -/
def Reply.count : Reply → Nat
  | removed count => count
  | silent | applied _ | view _ => 0

/-- How many connections some answers say that they have removed. -/
def Outcome.totalRemoved : List Outcome → Nat
  | [] => 0
  | out :: outs => out.reply.count + totalRemoved outs

/-- What comes of a sweep: it takes up identities as far as the batch goes, removes those that are
named by them, and counts what came of each, and those that it left aside. -/
structure Swept (r : Registry) (batch : Nat) (ids : List ConnectionId) (out : Outcome) : Prop where
  registry_eq : out.registry = r.without (ids.take batch)
  events_eq : out.events = []
  reply_eq : out.reply = .removed (r.entries.countP (Registry.isNamed (ids.take batch)))
  size_add : out.registry.size + out.reply.count = r.size
  tally_eq : ∃ stale missing, out.reply.count + stale + missing = min ids.length batch ∧
    out.tally =
      { cleanupRemoved := .ofNat out.reply.count
        cleanupStale := .ofNat stale
        lookupMiss := .ofNat missing
        cleanupDeferred := .ofNat (ids.length - batch) }

namespace Tracker

section Sound

variable {t : Tracker} (hsound : t.registry.IsSound)
include hsound

theorem swept_respond (ids : List ConnectionId) :
    Swept t.registry t.config.cleanupBatchSize ids (t.respond (.sweep ids)) := by
  have hregistry : (t.respond (.sweep ids)).registry =
      t.registry.without (ids.take t.config.cleanupBatchSize) :=
    Registry.removeAll_fst hsound _
  have hreply : (t.respond (.sweep ids)).reply =
      .removed (t.registry.entries.countP
        (Registry.isNamed (ids.take t.config.cleanupBatchSize))) :=
    congrArg Reply.removed (Registry.count_removed_removeAll hsound _)
  refine ⟨hregistry, rfl, hreply, ?_, ?_⟩
  · rw [hregistry, hreply]
    exact Registry.size_without _ _
  · have hcount := t.registry.count_removeAll (ids.take t.config.cleanupBatchSize)
    rw [List.length_take, Nat.min_comm] at hcount
    refine ⟨_, _, hcount, ?_⟩
    simp [respond, observed, swept, Step.sweep, Reply.count]

/-- Slices that a sweep takes up whole are swept one after the other. -/
theorem run_sweeps (slices : List (List ConnectionId))
    (hslices : ∀ slice ∈ slices, slice.length ≤ t.config.cleanupBatchSize) :
    (t.run (slices.map .sweep)).registry = t.registry.without slices.flatten ∧
      (t.run (slices.map .sweep)).registry.size +
        Outcome.totalRemoved (t.outcomes (slices.map .sweep)) = t.registry.size := by
  induction slices generalizing t with
  | nil =>
    have hsame : t.registry.without [] = t.registry := (Registry.removeAll_fst hsound []).symm
    exact ⟨hsame.symm, rfl⟩
  | cons slice slices ih =>
    have hslice : slice.take t.config.cleanupBatchSize = slice :=
      List.take_of_length_le (hslices slice List.mem_cons_self)
    have hswept := swept_respond hsound slice
    have hfirst : (t.next (.sweep slice)).registry = t.registry.without slice := by
      rw [registry_next, hswept.registry_eq, hslice]
    have hsound' : (t.next (.sweep slice)).registry.IsSound := by
      rw [hfirst, ← Registry.removeAll_fst hsound]
      exact hsound.removeAll slice
    rcases ih hsound' fun slice' hmem => hslices slice' (List.mem_cons_of_mem slice hmem) with
      ⟨hrest, hsize⟩
    refine ⟨?_, ?_⟩
    · calc
        (t.run ((slice :: slices).map .sweep)).registry
            = (t.next (.sweep slice)).registry.without slices.flatten := hrest
        _ = t.registry.without (slice :: slices).flatten := by
          rw [hfirst, Registry.without_without, List.flatten_cons]
    · -- What the first one removes is no longer there for the others.
      have hremoved := hswept.size_add
      simp only [List.map_cons, outcomes, Outcome.totalRemoved]
      rw [registry_next] at hsize
      have hrun : t.run (.sweep slice :: slices.map .sweep) =
          (t.next (.sweep slice)).run (slices.map .sweep) := rfl
      rw [hrun]
      omega

/-- The order of the identities that are taken up does not matter, nor how often each is named. -/
theorem respond_sweep_congr {ids ids' : List ConnectionId}
    (h : ∀ id, id ∈ ids.take t.config.cleanupBatchSize ↔ id ∈ ids'.take t.config.cleanupBatchSize) :
    (t.respond (.sweep ids)).registry = (t.respond (.sweep ids')).registry ∧
      (t.respond (.sweep ids)).reply = (t.respond (.sweep ids')).reply := by
  have hswept := swept_respond hsound ids
  have hswept' := swept_respond hsound ids'
  have hnamed := Registry.isNamed_congr h
  refine ⟨?_, ?_⟩
  · rw [hswept.registry_eq, hswept'.registry_eq, Registry.without, hnamed]
    rfl
  · rw [hswept.reply_eq, hswept'.reply_eq, hnamed]

/-- Slices leave what one sweep would leave that takes up all of them, and remove as many. -/
theorem run_sweeps_as_one {slices : List (List ConnectionId)}
    (hslices : ∀ slice ∈ slices, slice.length ≤ t.config.cleanupBatchSize) {t' : Tracker}
    (hsame : t'.registry = t.registry)
    (hfits : slices.flatten.length ≤ t'.config.cleanupBatchSize) :
    (t.run (slices.map .sweep)).registry = (t'.respond (.sweep slices.flatten)).registry ∧
      .removed (Outcome.totalRemoved (t.outcomes (slices.map .sweep))) =
        (t'.respond (.sweep slices.flatten)).reply := by
  rcases run_sweeps hsound slices hslices with ⟨hregistry, hsize⟩
  have hwhole := swept_respond (hsame ▸ hsound : t'.registry.IsSound) slices.flatten
  have htaken : slices.flatten.take t'.config.cleanupBatchSize = slices.flatten :=
    List.take_of_length_le hfits
  have hcount := Registry.size_without t.registry slices.flatten
  refine ⟨?_, ?_⟩
  · rw [hregistry, hwhole.registry_eq, htaken, hsame]
  · rw [hwhole.reply_eq, htaken, hsame]
    rw [hregistry] at hsize
    exact congrArg Reply.removed (by omega)

end Sound

variable {config : Config} {control : Control} {t : Tracker}

/-- At every moment of a run, a sweep removes the incarnations that are named by the identities it
takes up, says how many these are, and counts what came of each identity. It leaves all others as
they were. In which order and how often identities are named changes neither what is left nor how
many were removed. Nor does it matter whether they are swept at once or in slices, and an incarnation
whose key was reused stays if only older ones are named. -/
theorem sweep_exact (h : make config control = .ok t) (steps : List Step) :
    (∀ ids,
      Swept (t.run steps).registry config.cleanupBatchSize ids
          ((t.run steps).respond (.sweep ids)) ∧
        ∀ key c, ((t.run steps).respond (.sweep ids)).registry.find? key = some c ↔
          (t.run steps).registry.find? key = some c ∧
            ∀ id ∈ ids.take config.cleanupBatchSize,
              id.key = key → id.generation ≠ c.id.generation) ∧
    (∀ ids ids', (∀ id, id ∈ ids.take config.cleanupBatchSize ↔
        id ∈ ids'.take config.cleanupBatchSize) →
      ((t.run steps).respond (.sweep ids)).registry =
          ((t.run steps).respond (.sweep ids')).registry ∧
        ((t.run steps).respond (.sweep ids)).reply =
          ((t.run steps).respond (.sweep ids')).reply) ∧
    ∀ slices : List (List ConnectionId),
      (∀ slice ∈ slices, slice.length ≤ config.cleanupBatchSize) →
      (∀ t' : Tracker, t'.registry = (t.run steps).registry →
        slices.flatten.length ≤ t'.config.cleanupBatchSize →
        (t.run (steps ++ slices.map .sweep)).registry =
            (t'.respond (.sweep slices.flatten)).registry ∧
          .removed (Outcome.totalRemoved ((t.run steps).outcomes (slices.map .sweep))) =
            (t'.respond (.sweep slices.flatten)).reply) ∧
      ∀ key c, (t.run steps).registry.find? key = some c →
        (∀ id ∈ slices.flatten, id.key = key → id.generation < c.id.generation) →
        (t.run (steps ++ slices.map .sweep)).registry.find? key = some c := by
  have hsound := sound_run h steps
  have hconfig : (t.run steps).config = config := by simp [(make_eq_ok h).1]
  simp only [← hconfig, run_append]
  refine ⟨?_, ?_, ?_⟩
  · intro ids
    have hswept := swept_respond hsound ids
    refine ⟨hswept, ?_⟩
    intro key c
    rw [hswept.registry_eq]
    exact Registry.find?_without hsound _ key c
  · intro ids ids' hmem
    exact respond_sweep_congr hsound hmem
  · intro slices hslices
    refine ⟨fun t' hsame hfits => run_sweeps_as_one hsound hslices hsame hfits, ?_⟩
    intro key c hfound hold
    rw [(run_sweeps hsound slices hslices).1, Registry.find?_without hsound]
    refine ⟨hfound, ?_⟩
    intro id hid hkey hsame
    have hlt := hold id hid hkey
    rw [hsame] at hlt
    exact absurd hlt (UInt64.lt_irrefl _)

/-- A handle is set up twice, and another one once. -/
def reused : List Step :=
  [Session.connect ⟨7, 3⟩, Session.connect ⟨7, 3⟩, Session.connect ⟨7, 4⟩]

/-- The first incarnation of the first handle, the other handle twice, and one that is not known, in
two slices. -/
def dismissals : List (List ConnectionId) :=
  [[⟨⟨7, 3⟩, 1, 1⟩, ⟨⟨7, 4⟩, 1, 3⟩], [⟨⟨7, 4⟩, 1, 3⟩, ⟨⟨7, 9⟩, 1, 1⟩]]

/-- The other handle is removed. The first one stays, as its second incarnation is not named, and the
slices leave what one sweep leaves. -/
theorem sweep_exact_reused :
    make .standard .everything = .ok standard ∧
      (∀ slice ∈ dismissals, slice.length ≤ Config.standard.cleanupBatchSize) ∧
      Swept (standard.run reused).registry 85 dismissals.flatten
        ((standard.run reused).respond (.sweep dismissals.flatten)) ∧
      ((standard.run reused).respond (.sweep dismissals.flatten)).tally =
        { cleanupRemoved := 1, cleanupStale := 1, lookupMiss := 2 } ∧
      (standard.run (reused ++ dismissals.map .sweep)).registry =
        ((standard.run reused).respond (.sweep dismissals.flatten)).registry ∧
      ∃ c, (standard.run (reused ++ dismissals.map .sweep)).registry.find? ⟨7, 3⟩ = some c ∧
        c.id.generation = 2 := by
  have hslices : ∀ slice ∈ dismissals, slice.length ≤ Config.standard.cleanupBatchSize := by decide
  have htally : ((standard.run reused).respond (.sweep dismissals.flatten)).tally =
      { cleanupRemoved := 1, cleanupStale := 1, lookupMiss := 2 } := by decide +kernel
  have hgeneration : ((standard.run reused).registry.find? ⟨7, 3⟩).map (·.id.generation) =
      some 2 := by decide +kernel
  rcases Option.map_eq_some_iff.1 hgeneration with ⟨c, hfound, hc⟩
  rcases sweep_exact make_standard reused with ⟨hswept, -, hsliced⟩
  rcases hsliced dismissals hslices with ⟨hwhole, hold⟩
  have holder : ∀ id ∈ dismissals.flatten, id.key = ⟨7, 3⟩ → id.generation < c.id.generation := by
    rw [hc]
    decide
  exact ⟨make_standard, hslices, (hswept dismissals.flatten).1, htally,
    (hwhole (standard.run reused) rfl (by decide)).1, c, hold _ c hfound holder, hc⟩

end Tracker

end FlowTrace
