import FlowTrace.Proofs.Reaction
import Mathlib.Data.List.Induction

/-!
# Chronicle — a run, told by incarnations

A chronicle follows a run and numbers the incarnations in the order in which they begin. Unlike a
generation, a number is never used twice, however long the run is. For every step that concerns a
connection the chronicle has an entry: the encounter, the incarnation's number and the events that
the tracker answered.

The main result is that the entries of one incarnation form a `Life`: the first one begins it, each
later one meets the connection as the one before has left it, and none follows a close.
-/

namespace FlowTrace

structure Entry extends Encounter where
  /-- Which incarnation it is, in the order in which they begin. -/
  number : Nat
  /-- The events of the step. -/
  events : List Event
  deriving DecidableEq, Repr

structure Chronicle where
  tracker : Tracker
  /-- How many incarnations have begun. -/
  begun : Nat
  /-- The number of the incarnation that a key was last tracked as. -/
  number : ConnectionKey → Nat
  entries : List Entry

namespace Chronicle

def start (t : Tracker) : Chronicle where
  tracker := t
  begun := 0
  number _ := 0
  entries := []

/-- The entry of an encounter: a new incarnation gets the next number. -/
def entry (h : Chronicle) (s : Step) (e : Encounter) : Entry where
  toEncounter := e
  number := if e.isNew then h.begun else h.number e.key
  events := (h.tracker.respond s).events

def next (h : Chronicle) (s : Step) : Chronicle :=
  match h.tracker.encounter? s with
  | none => { h with tracker := h.tracker.next s }
  | some e =>
    { tracker := h.tracker.next s
      begun := if e.isNew then h.begun + 1 else h.begun
      number := fun key => if key = e.key then (h.entry s e).number else h.number key
      entries := h.entries ++ [h.entry s e] }

/-- The entries of one incarnation. -/
def of (h : Chronicle) (n : Nat) : List Entry :=
  h.entries.filter (·.number = n)

end Chronicle

namespace Tracker

/-- The chronicle of a run. -/
def chronicle (t : Tracker) (steps : List Step) : Chronicle :=
  steps.foldl Chronicle.next (.start t)

/-- How many steps of a run are of a kind, each of them judged by the tracker that takes it. -/
def count (t : Tracker) (kind : Tracker → Step → Bool) : List Step → Nat
  | [] => 0
  | s :: steps => (if kind t s then 1 else 0) + (t.next s).count kind steps

/-- Whether a generation is issued in a step. -/
def issues (t : Tracker) (s : Step) : Bool :=
  (t.next s).registry.nextGeneration != t.registry.nextGeneration

/-- How many generations are issued in a run. -/
def issued (t : Tracker) (steps : List Step) : Nat :=
  t.count issues steps

end Tracker

@[simp] theorem Tracker.registry_next (t : Tracker) (s : Step) :
    (t.next s).registry = (t.respond s).registry :=
  rfl

@[simp] theorem Tracker.config_next (t : Tracker) (s : Step) : (t.next s).config = t.config :=
  rfl

@[simp] theorem Tracker.control_next (t : Tracker) (s : Step) : (t.next s).control = t.control :=
  rfl

/-- A tracker is made of a configuration and a control that pass their checks. -/
theorem Tracker.make_eq_ok {config : Config} {control : Control} {t : Tracker}
    (h : Tracker.make config control = .ok t) :
    t = ⟨config, control, .empty config.maxConnections config.capacityPolicy, {}⟩ ∧
      config.check = .ok () ∧ control.check = .ok () := by
  unfold make at h
  cases hconfig : config.check with
  | error e =>
    rw [hconfig] at h
    cases h
  | ok _ =>
    cases hcontrol : control.check with
    | error e =>
      rw [hconfig, hcontrol] at h
      cases h
    | ok _ =>
      rw [hconfig, hcontrol] at h
      cases h
      exact ⟨rfl, rfl, rfl⟩

/-- The bounds of a configuration that passes its check are positive. -/
theorem Config.bound_ne_zero {config : Config} (h : config.check = .ok ()) (setting : Setting)
    {bound : Nat} (hmem : (setting, bound) ∈ config.bounds) : bound ≠ 0 := by
  unfold check at h
  split at h
  · cases h
  · next hfind =>
    have hpositive := List.find?_eq_none.1 hfind (setting, bound) hmem
    simpa using hpositive

/-! ## Lives -/

/-- The entries of an incarnation from its beginning on, and the connection that they leave, if it
is not closed. -/
inductive Life (config : Config) (control : Control) : List Entry → Option Connection → Prop
  | begin {e : Entry} (hnew : e.isNew = true) (hbirth : e.IsBirth)
      (hmoved : e.incident.isEmpty = false)
      (hevents : e.events = (e.reaction config control).events) :
      Life config control [e] (e.after? config control)
  | meet {past : List Entry} {c : Connection} {e : Entry}
      (hpast : Life config control past (some c)) (hold : e.isNew = false)
      (hopening : e.incident.isOpening = false) (hfound : e.connection = c)
      (hmoved : e.incident.isEmpty = false)
      (hevents : e.events = (e.reaction config control).events) :
      Life config control (past ++ [e]) (e.after? config control)

theorem Entry.flatMap_chunks (es : List Entry) :
    (es.flatMap fun e => Event.chunks e.events) = Event.chunks (es.flatMap Entry.events) := by
  rw [Event.chunks, List.filterMap_flatMap]
  rfl

/-- What is known of an entry that comes after the others of its incarnation. -/
structure Entry.ComesAfter (config : Config) (control : Control) (past : List Entry) (e : Entry) :
    Prop where
  opening : e.incident.isOpening = true → past = []
  moved : e.incident.isEmpty = false
  events_eq : e.events = (e.reaction config control).events

theorem Entry.ComesAfter.of_not_opening {config : Config} {control : Control} (past : List Entry)
    {e : Entry} (hopening : e.incident.isOpening = false) (hmoved : e.incident.isEmpty = false)
    (hevents : e.events = (e.reaction config control).events) :
    e.ComesAfter config control past := by
  refine ⟨?_, hmoved, hevents⟩
  intro hyes
  rw [hopening] at hyes
  cases hyes

/-- A property of a live connection and the entries that have led to it: a connection has it when it
starts, and keeps it as long as it is not closed. -/
structure Life.Invariant (config : Config) (control : Control)
    (P : List Entry → Connection → Prop) : Prop where
  fresh : ∀ id address role, P [] (.start id address role)
  step : ∀ past e, e.ComesAfter config control past → e.incident.isClosing = false →
    P past e.connection → P (past ++ [e]) (e.reaction config control).connection

namespace Life

variable {config : Config} {control : Control} {past : List Entry} {status : Option Connection}

theorem ne_nil (h : Life config control past status) : past ≠ [] := by
  cases h <;> simp

theorem id_after? {e : Entry} {c : Connection} (h : e.after? config control = some c) :
    c.id = e.connection.id := by
  rw [(Encounter.of_after? h).2]
  exact Connection.id_undergo control e.incident

/-- An entry begins the incarnation, or meets what the entries before it have left. -/
theorem split {e : Entry} {more : List Entry}
    (h : Life config control (past ++ e :: more) status) :
    e.ComesAfter config control past ∧
      ((past = [] ∧ e.IsBirth) ∨ Life config control past (some e.connection)) := by
  generalize hall : past ++ e :: more = all at h
  induction h generalizing more with
  | @begin e' hnew hbirth hmoved hevents =>
    rcases List.append_eq_singleton_iff.1 hall with ⟨rfl, hcons⟩ | ⟨_, hcons⟩
    · rcases List.cons.inj hcons with ⟨rfl, -⟩
      exact ⟨⟨fun _ => rfl, hmoved, hevents⟩, Or.inl ⟨rfl, hbirth⟩⟩
    · cases hcons
  | @meet past' c e' hpast' hold hopening hfound hmoved hevents ih =>
    rcases List.eq_nil_or_concat more with rfl | ⟨front, last, rfl⟩
    · -- The entry is the last one.
      rcases List.append_inj' hall rfl with ⟨rfl, hlast⟩
      rcases List.cons.inj hlast with ⟨rfl, -⟩
      rw [hfound]
      exact ⟨.of_not_opening past hopening hmoved hevents, Or.inr hpast'⟩
    · have hfront : (past ++ e :: front) ++ [last] = past' ++ [e'] := by
        simpa using hall
      exact ih (List.append_inj' hfront rfl).1

/-- Every entry tells the events of its incident. -/
theorem events_eq (h : Life config control past status) {e : Entry} (he : e ∈ past) :
    e.events = (e.reaction config control).events := by
  rcases List.append_of_mem he with ⟨before, after, rfl⟩
  exact h.split.1.events_eq

namespace Invariant

variable {P : List Entry → Connection → Prop}

/-- An invariant holds of a connection that lives. -/
theorem of_live (hp : Invariant config control P) {c : Connection}
    (h : Life config control past (some c)) : P past c := by
  generalize hstatus : some c = status at h
  induction h generalizing c with
  | @begin e hnew hbirth hmoved hevents =>
    have hstart : P [] e.connection := by
      rcases hbirth.exists_start with ⟨address, role, hconnection⟩
      rw [hconnection]
      exact hp.fresh _ _ _
    rcases Encounter.of_after? hstatus.symm with ⟨hclosing, rfl⟩
    exact hp.step [] e ⟨fun _ => rfl, hmoved, hevents⟩ hclosing hstart
  | @meet past d e hpast hold hopening hfound hmoved hevents ih =>
    have hafter := Entry.ComesAfter.of_not_opening past hopening hmoved hevents
    rcases Encounter.of_after? hstatus.symm with ⟨hclosing, rfl⟩
    exact hp.step past e hafter hclosing (ih (by rw [hfound]))

/-- An invariant holds of a connection as each of its entries meets it. -/
theorem of_met (hp : Invariant config control P) {e : Entry} {more : List Entry}
    (h : Life config control (past ++ e :: more) status) : P past e.connection := by
  rcases h.split.2 with ⟨rfl, hbirth⟩ | hmet
  · rcases hbirth.exists_start with ⟨address, role, hconnection⟩
    rw [hconnection]
    exact hp.fresh _ _ _
  · exact hp.of_live hmet

end Invariant

/-- An incarnation keeps its identity. -/
theorem id_invariant :
    Invariant config control fun past c => ∀ e ∈ past, e.connection.id = c.id := by
  constructor
  · intro id address role e he
    cases he
  · intro past e hafter hclosing hpast e' he'
    have hid : (e.reaction config control).connection.id = e.connection.id :=
      Connection.id_undergo control e.incident
    rw [hid]
    rcases List.mem_append.1 he' with hmem | hmem
    · exact hpast e' hmem
    · rw [List.mem_singleton.1 hmem]

end Life

/-! ## The invariant of a chronicle -/

namespace Chronicle

/-- What holds of a chronicle at every moment of a run. -/
structure Valid (h : Chronicle) : Prop where
  keyed : h.tracker.registry.IsKeyed
  next_generation : h.tracker.registry.nextGeneration = UInt64.ofNat (h.begun + 1)
  number_lt : ∀ e ∈ h.entries, e.number < h.begun
  generation_eq : ∀ e ∈ h.entries, e.connection.id.generation = UInt64.ofNat (e.number + 1)
  /-- A tracked connection is the one that the entries of its incarnation leave. -/
  live : ∀ key c, h.tracker.registry.find? key = some c →
    Life h.tracker.config h.tracker.control (h.of (h.number key)) (some c)
  /-- Two keys are never tracked as one incarnation. -/
  apart : ∀ key key' c c', h.tracker.registry.find? key = some c →
    h.tracker.registry.find? key' = some c' → h.number key = h.number key' → key = key'
  life : ∀ n, h.of n ≠ [] → ∃ status, Life h.tracker.config h.tracker.control (h.of n) status

theorem valid_start {config : Config} {control : Control} {t : Tracker}
    (h : Tracker.make config control = .ok t) : (start t).Valid := by
  rcases Tracker.make_eq_ok h with ⟨rfl, -, -⟩
  refine ⟨?_, rfl, ?_, ?_, ?_, ?_, ?_⟩
  · intro key c hfound
    cases hfound
  · intro e he
    cases he
  · intro e he
    cases he
  · intro key c hfound
    cases hfound
  · intro key key' c c' hfound
    cases hfound
  · intro n hne
    exact absurd rfl hne

theorem next_of_none {h : Chronicle} {s : Step} (hnone : h.tracker.encounter? s = none) :
    h.next s = { h with tracker := h.tracker.next s } := by
  simp only [next, hnone]

theorem Valid.passes {h : Chronicle} (hv : h.Valid) {s : Step}
    (hnone : h.tracker.encounter? s = none) : h.tracker.Passes (h.tracker.respond s) := by
  have hanswers := Tracker.answers_respond hv.keyed s
  rwa [hnone] at hanswers

theorem Valid.meets {h : Chronicle} (hv : h.Valid) {s : Step} {e : Encounter}
    (hsome : h.tracker.encounter? s = some e) : h.tracker.Meets e (h.tracker.respond s) := by
  have hanswers := Tracker.answers_respond hv.keyed s
  rwa [hsome] at hanswers

/-- A step without an encounter writes nothing, and connections may only leave. -/
theorem Valid.next_of_passes {h : Chronicle} (hv : h.Valid) {s : Step}
    (hnone : h.tracker.encounter? s = none) : (h.next s).Valid := by
  have hpasses := hv.passes hnone
  have hwithin : Registry.Within (h.tracker.next s).registry h.tracker.registry := hpasses.within
  rw [next_of_none hnone]
  -- No entry is written, so the lives are the same, and no key is tracked that was not.
  refine ⟨?_, ?_, hv.number_lt, hv.generation_eq, ?_, ?_, hv.life⟩
  · intro key c hfound
    exact hv.keyed key c (hwithin key c hfound)
  · exact hpasses.nextGeneration_eq.trans hv.next_generation
  · intro key c hfound
    exact hv.live key c (hwithin key c hfound)
  · intro key key' c c' hfound hfound'
    exact hv.apart key key' c c' (hwithin key c hfound) (hwithin key' c' hfound')

section Meeting

variable {h : Chronicle} {s : Step} {e : Encounter}

theorem next_of_encounter (hsome : h.tracker.encounter? s = some e) :
    h.next s =
      { tracker := h.tracker.next s
        begun := if e.isNew then h.begun + 1 else h.begun
        number := fun key => if key = e.key then (h.entry s e).number else h.number key
        entries := h.entries ++ [h.entry s e] } := by
  simp only [next, hsome]

/-- An entry is added to its own incarnation alone. -/
theorem of_next (hsome : h.tracker.encounter? s = some e) (n : Nat) :
    (h.next s).of n = h.of n ++ if (h.entry s e).number = n then [h.entry s e] else [] := by
  rw [next_of_encounter hsome, of, List.filter_append]
  by_cases hn : (h.entry s e).number = n <;> simp [of, hn]

theorem Valid.of_begun_eq_nil (hv : h.Valid) : h.of h.begun = [] := by
  apply List.filter_eq_nil_iff.2
  intro e he hn
  have hlt : e.number < h.begun := hv.number_lt e he
  rw [of_decide_eq_true hn] at hlt
  exact Nat.lt_irrefl _ hlt

theorem Valid.number_lt_begun (hv : h.Valid) {key : ConnectionKey} {c : Connection}
    (hfound : h.tracker.registry.find? key = some c) : h.number key < h.begun := by
  rcases List.exists_mem_of_ne_nil _ (hv.live key c hfound).ne_nil with ⟨e, he⟩
  have hmem := List.mem_filter.1 he
  rw [← of_decide_eq_true hmem.2]
  exact hv.number_lt e hmem.1

/-- The entry of an encounter continues the life of its incarnation. -/
theorem Valid.life_entry (hv : h.Valid) (hsome : h.tracker.encounter? s = some e) :
    Life h.tracker.config h.tracker.control (h.of (h.entry s e).number ++ [h.entry s e])
      (e.after? h.tracker.config h.tracker.control) := by
  have hmeets := hv.meets hsome
  have hmoved : e.incident.isEmpty = false := Tracker.isEmpty_of_encounter? hsome
  cases hnew : e.isNew with
  | true =>
    -- The number is new, so this entry is the first one.
    have hnil : h.of (h.entry s e).number = [] := by
      simpa [entry, hnew] using hv.of_begun_eq_nil
    rw [hnil, List.nil_append]
    exact Life.begin hnew (hmeets.birth hnew).1 hmoved hmeets.events_eq
  | false =>
    -- The connection is tracked, so it is the one that the entries of its number have left.
    rcases hmeets.found hnew with ⟨hopening, hfound, -⟩
    have hlife := hv.live e.key e.connection hfound
    have hnumber : (h.entry s e).number = h.number e.key := by
      simp [entry, hnew]
    rw [hnumber]
    exact Life.meet hlife hnew hopening rfl hmoved hmeets.events_eq

/-- A tracked connection has the generation of its number. -/
theorem Valid.generation_of_tracked (hv : h.Valid) {key : ConnectionKey} {c : Connection}
    (hfound : h.tracker.registry.find? key = some c) :
    c.id.generation = UInt64.ofNat (h.number key + 1) := by
  have hlife := hv.live key c hfound
  -- An incarnation keeps its identity, and its entries have the generation of the number.
  rcases List.exists_mem_of_ne_nil _ hlife.ne_nil with ⟨past, hpast⟩
  have hmem := List.mem_filter.1 hpast
  have hid : past.connection.id = c.id := Life.id_invariant.of_live hlife past hpast
  have hnumber : past.number = h.number key := of_decide_eq_true hmem.2
  simpa [hid, hnumber] using hv.generation_eq past hmem.1

/-- The identity that an entry shows is that of its number. -/
theorem Valid.generation_entry (hv : h.Valid)
    (hmeets : h.tracker.Meets e (h.tracker.respond s)) :
    e.connection.id.generation =
      UInt64.ofNat ((h.entry s e).number + 1) := by
  cases hnew : e.isNew with
  | true =>
    rw [(hmeets.birth hnew).2.1, hv.next_generation]
    simp [entry, hnew]
  | false =>
    rcases hmeets.found hnew with ⟨-, hfound, -⟩
    simpa [entry, hnew] using hv.generation_of_tracked hfound

/-- Another key keeps its number, which is not that of the entry. -/
theorem Valid.number_ne_of_ne (hv : h.Valid) (hmeets : h.tracker.Meets e (h.tracker.respond s))
    {key : ConnectionKey} {c : Connection} (hkey : key ≠ e.key)
    (hfound : h.tracker.registry.find? key = some c) :
    (h.entry s e).number ≠ h.number key := by
  intro hsame
  cases hnew : e.isNew with
  | true =>
    -- A new number is larger than those of the tracked keys.
    have hlt := hv.number_lt_begun hfound
    rw [← hsame] at hlt
    simp [entry, hnew] at hlt
  | false =>
    rcases hmeets.found hnew with ⟨-, hmet, -⟩
    have hnumber : h.number key = h.number e.key := by
      rw [← hsame]
      simp [entry, hnew]
    exact hkey (hv.apart key e.key c e.connection hfound hmet hnumber)

theorem Valid.next_of_meets (hv : h.Valid) (hsome : h.tracker.encounter? s = some e) :
    (h.next s).Valid := by
  have hmeets := hv.meets hsome
  have hlife := hv.life_entry hsome
  have hentry : (h.entry s e).number <
      if e.isNew then h.begun + 1 else h.begun := by
    cases hnew : e.isNew with
    | true => simp [entry, hnew]
    | false => simpa [entry, hnew] using hv.number_lt_begun (hmeets.found hnew).2.1
  have hbegun : h.begun ≤ if e.isNew then h.begun + 1 else h.begun := by
    split <;> omega
  -- What another key finds was found before, under the same number.
  have hother : ∀ key c, key ≠ e.key → (h.tracker.next s).registry.find? key = some c →
      h.tracker.registry.find? key = some c := hmeets.find?_of_ne
  have hself : (h.tracker.next s).registry.find? e.key =
      e.after? h.tracker.config h.tracker.control := hmeets.find?_key
  have hof := of_next hsome
  rw [next_of_encounter hsome] at hof ⊢
  refine ⟨?_, ?_, ?_, ?_, ?_, ?_, ?_⟩
  · intro key c hfound
    by_cases hkey : key = e.key
    · subst hkey
      rw [Life.id_after? (e := h.entry s e) (hself.symm.trans hfound)]
      rfl
    · exact hv.keyed key c (hother key c hkey hfound)
  · -- The generation counter and the count of incarnations move together.
    cases hnew : e.isNew with
    | true =>
      have hnext := (hmeets.birth hnew).2.2
      rw [hv.next_generation] at hnext
      simpa [UInt64.ofNat_add] using! hnext
    | false =>
      have hnext := (hmeets.found hnew).2.2
      rw [hv.next_generation] at hnext
      exact hnext
  · intro e' he'
    rcases List.mem_append.1 he' with hmem | hmem
    · exact Nat.lt_of_lt_of_le (hv.number_lt e' hmem) hbegun
    · rw [List.mem_singleton.1 hmem]
      exact hentry
  · intro e' he'
    rcases List.mem_append.1 he' with hmem | hmem
    · exact hv.generation_eq e' hmem
    · rw [List.mem_singleton.1 hmem]
      exact hv.generation_entry hmeets
  · -- The key of the entry lives on as the entry leaves it; the lives of the others are untouched.
    intro key c hfound
    rw [hof]
    by_cases hkey : key = e.key
    · subst hkey
      simp only [if_true]
      rw [← hself.symm.trans hfound]
      exact hlife
    · have hfound := hother key c hkey hfound
      simp only [if_neg hkey, if_neg (hv.number_ne_of_ne hmeets hkey hfound), List.append_nil]
      exact hv.live key c hfound
  · -- Two keys of one number would be tracked so before, or one of them is the key of the entry.
    intro key key' c c' hfound hfound' hsame
    by_cases hkey : key = e.key <;> by_cases hkey' : key' = e.key
    · rw [hkey, hkey']
    · simp only [if_pos hkey, if_neg hkey'] at hsame
      exact absurd hsame (hv.number_ne_of_ne hmeets hkey' (hother key' c' hkey' hfound'))
    · simp only [if_neg hkey, if_pos hkey'] at hsame
      exact absurd hsame.symm (hv.number_ne_of_ne hmeets hkey (hother key c hkey hfound))
    · simp only [if_neg hkey, if_neg hkey'] at hsame
      exact hv.apart key key' c c' (hother key c hkey hfound) (hother key' c' hkey' hfound') hsame
  · intro n hne
    rw [hof] at hne ⊢
    by_cases hn : (h.entry s e).number = n
    · subst hn
      simp only [if_true]
      exact ⟨_, hlife⟩
    · simp only [if_neg hn, List.append_nil] at hne ⊢
      exact hv.life n hne

end Meeting

theorem Valid.next {h : Chronicle} (hv : h.Valid) (s : Step) : (h.next s).Valid := by
  cases hencounter : h.tracker.encounter? s with
  | none => exact hv.next_of_passes hencounter
  | some e => exact hv.next_of_meets hencounter

@[simp] theorem tracker_next (h : Chronicle) (s : Step) :
    (h.next s).tracker = h.tracker.next s := by
  unfold next
  split <;> rfl

/-- An incarnation begins exactly where a generation is issued. -/
theorem Valid.begun_next {h : Chronicle} (hv : h.Valid) (s : Step) :
    (h.next s).begun = h.begun + if h.tracker.issues s then 1 else 0 := by
  cases hencounter : h.tracker.encounter? s with
  | none =>
    have hkept : h.tracker.issues s = false := by
      simp [Tracker.issues, (hv.passes hencounter).nextGeneration_eq]
    rw [hkept, next_of_none hencounter]
    rfl
  | some e =>
    have hmeets := hv.meets hencounter
    have hissues : h.tracker.issues s = e.isNew := by
      cases hnew : e.isNew with
      | true =>
        -- The counter has moved by one, which is never by nothing, even where it wraps around.
        simp [Tracker.issues, (hmeets.birth hnew).2.2]
      | false => simp [Tracker.issues, (hmeets.found hnew).2.2]
    rw [hissues, next_of_encounter hencounter]
    cases e.isNew <;> rfl

theorem Valid.events_next {h : Chronicle} (hv : h.Valid) (s : Step) :
    (h.next s).entries.flatMap Entry.events =
      h.entries.flatMap Entry.events ++ (h.tracker.respond s).events := by
  cases hencounter : h.tracker.encounter? s with
  | none =>
    rw [(hv.passes hencounter).events_eq, List.append_nil, next_of_none hencounter]
  | some e =>
    rw [next_of_encounter hencounter]
    simp [entry]

/-! ## Entries of one incarnation -/

theorem mem_of {h : Chronicle} {e : Entry} (he : e ∈ h.entries) : e ∈ h.of e.number :=
  List.mem_filter.2 ⟨he, by simp⟩

theorem Valid.life_of_mem {h : Chronicle} (hv : h.Valid) {e : Entry} (he : e ∈ h.entries) :
    ∃ status, Life h.tracker.config h.tracker.control (h.of e.number) status :=
  hv.life e.number (List.ne_nil_of_mem (mem_of he))

/-- What an incarnation has become before one of its later entries. -/
theorem Valid.life_before {h : Chronicle} (hv : h.Valid) {before after : List Entry} {d e : Entry}
    (hentries : h.entries = before ++ e :: after) (hd : d ∈ before)
    (hnumber : d.number = e.number) :
    Life h.tracker.config h.tracker.control (before.filter (·.number = e.number))
      (some e.connection) := by
  have he : e ∈ h.entries := by simp [hentries]
  rcases hv.life_of_mem he with ⟨status, hlife⟩
  have hof : h.of e.number =
      before.filter (·.number = e.number) ++ e :: after.filter (·.number = e.number) := by
    simp [of, hentries]
  have hpast : before.filter (·.number = e.number) ≠ [] :=
    List.ne_nil_of_mem (List.mem_filter.2 ⟨hd, by simpa using hnumber⟩)
  rw [hof] at hlife
  rcases hlife.split.2 with ⟨hnil, -⟩ | hmet
  · exact absurd hnil hpast
  · exact hmet

/-! ## Later entries -/

/-- A chronicle that was carried on by some entries. -/
structure Extends (h h' : Chronicle) (later : List Entry) : Prop where
  entries_eq : h'.entries = h.entries ++ later
  begun_le : h.begun ≤ h'.begun
  /-- A key keeps its number until an incarnation begins under it. -/
  number : ∀ key, h'.number key = h.number key ∨ h.begun ≤ h'.number key
  later_number : ∀ e ∈ later, e.number = h.number e.key ∨ h.begun ≤ e.number

namespace Extends

theorem refl (h : Chronicle) : h.Extends h [] := by
  refine ⟨(List.append_nil _).symm, Nat.le_refl _, fun key => Or.inl rfl, ?_⟩
  intro e he
  cases he

theorem next {h h' : Chronicle} {later : List Entry} (hext : h.Extends h' later) (s : Step) :
    ∃ more, h.Extends (h'.next s) (later ++ more) := by
  rcases hext with ⟨hentries, hbegun, hnumber, hlater⟩
  cases hencounter : h'.tracker.encounter? s with
  | none =>
    refine ⟨[], ?_⟩
    rw [next_of_none hencounter, List.append_nil]
    exact ⟨hentries, hbegun, hnumber, hlater⟩
  | some e =>
    -- A new number is past all that had begun; another one is that of a key.
    have hentry : (h'.entry s e).number = h.number e.key ∨ h.begun ≤ (h'.entry s e).number := by
      cases hnew : e.isNew with
      | true => exact Or.inr (by simpa [entry, hnew] using hbegun)
      | false => simpa [entry, hnew] using hnumber e.key
    refine ⟨[h'.entry s e], ?_⟩
    rw [next_of_encounter hencounter]
    refine ⟨?_, ?_, ?_, ?_⟩
    · rw [hentries, List.append_assoc]
    · show h.begun ≤ if e.isNew then h'.begun + 1 else h'.begun
      split <;> omega
    · intro key
      by_cases hkey : key = e.key
      · simpa only [hkey, if_true] using hentry
      · simpa only [if_neg hkey] using hnumber key
    · intro x hx
      rcases List.mem_append.1 hx with hmem | hmem
      · exact hlater x hmem
      · rw [List.mem_singleton.1 hmem]
        exact hentry

/-- An incarnation that had not begun has no entry but later ones. -/
theorem mem_later {h h' : Chronicle} {later : List Entry} (hext : h.Extends h' later)
    (hv : h.Valid) {e : Entry} (he : e ∈ h'.entries) (hnew : h.begun ≤ e.number) : e ∈ later := by
  rw [hext.entries_eq] at he
  rcases List.mem_append.1 he with hearly | hlater
  · exact absurd (hv.number_lt e hearly) (Nat.not_lt.2 hnew)
  · exact hlater

end Extends

/-- A run carries a chronicle on. -/
theorem exists_extends (h : Chronicle) (steps : List Step) :
    ∃ later, h.Extends (steps.foldl Chronicle.next h) later := by
  induction steps using List.reverseRecOn with
  | nil => exact ⟨[], Extends.refl h⟩
  | append_singleton steps s ih =>
    rcases ih with ⟨later, hext⟩
    rcases hext.next s with ⟨more, hmore⟩
    rw [List.foldl_append]
    exact ⟨later ++ more, hmore⟩

end Chronicle

/-! ## Runs -/

namespace Tracker

theorem run_append (t : Tracker) (first rest : List Step) :
    t.run (first ++ rest) = (t.run first).run rest :=
  List.foldl_append

@[simp] theorem config_run (t : Tracker) (steps : List Step) : (t.run steps).config = t.config := by
  induction steps generalizing t with
  | nil => rfl
  | cons s steps ih => exact ih (t.next s)

@[simp] theorem control_run (t : Tracker) (steps : List Step) :
    (t.run steps).control = t.control := by
  induction steps generalizing t with
  | nil => rfl
  | cons s steps ih => exact ih (t.next s)

theorem outcomes_append (t : Tracker) (first rest : List Step) :
    t.outcomes (first ++ rest) = t.outcomes first ++ (t.run first).outcomes rest := by
  induction first generalizing t with
  | nil => rfl
  | cons s first ih => exact congrArg (t.respond s :: ·) (ih (t.next s))

theorem events_append (t : Tracker) (first rest : List Step) :
    t.events (first ++ rest) = t.events first ++ (t.run first).events rest := by
  rw [events, outcomes_append, List.flatMap_append]
  rfl

@[simp] theorem events_singleton (t : Tracker) (s : Step) : t.events [s] = (t.respond s).events :=
  List.append_nil _

theorem count_append (t : Tracker) (kind : Tracker → Step → Bool) (first rest : List Step) :
    t.count kind (first ++ rest) = t.count kind first + (t.run first).count kind rest := by
  induction first generalizing t with
  | nil => exact (Nat.zero_add _).symm
  | cons s first ih =>
    have htail := ih (t.next s)
    simp only [List.cons_append, count, htail, Nat.add_assoc]
    rfl

theorem count_concat (t : Tracker) (kind : Tracker → Step → Bool) (steps : List Step) (s : Step) :
    t.count kind (steps ++ [s]) = t.count kind steps + if kind (t.run steps) s then 1 else 0 :=
  count_append t kind steps [s]

theorem chronicle_append (t : Tracker) (first rest : List Step) :
    t.chronicle (first ++ rest) = rest.foldl Chronicle.next (t.chronicle first) :=
  List.foldl_append

theorem chronicle_concat (t : Tracker) (steps : List Step) (s : Step) :
    t.chronicle (steps ++ [s]) = (t.chronicle steps).next s :=
  chronicle_append t steps [s]

section Made

variable {config : Config} {control : Control} {t : Tracker}

theorem valid_chronicle (h : make config control = .ok t) (steps : List Step) :
    (t.chronicle steps).Valid := by
  induction steps using List.reverseRecOn with
  | nil => exact Chronicle.valid_start h
  | append_singleton steps s ih =>
    rw [chronicle_concat]
    exact ih.next s

@[simp] theorem tracker_chronicle (t : Tracker) (steps : List Step) :
    (t.chronicle steps).tracker = t.run steps := by
  induction steps using List.reverseRecOn with
  | nil => rfl
  | append_singleton steps s ih =>
    rw [chronicle_concat, Chronicle.tracker_next, ih, run_append]
    rfl

/-- The entries of an incarnation that has begun form a life under the configuration of the tracker. -/
theorem exists_life (h : make config control = .ok t) (steps : List Step) {n : Nat}
    (hne : (t.chronicle steps).of n ≠ []) :
    ∃ status, Life config control ((t.chronicle steps).of n) status := by
  simpa [(make_eq_ok h).1] using (valid_chronicle h steps).life n hne

theorem keyed_run (h : make config control = .ok t) (steps : List Step) :
    (t.run steps).registry.IsKeyed := by
  simpa using (valid_chronicle h steps).keyed

/-- The numbers count the generations that are issued. -/
theorem begun_chronicle (h : make config control = .ok t) (steps : List Step) :
    (t.chronicle steps).begun = t.issued steps := by
  induction steps using List.reverseRecOn with
  | nil => rfl
  | append_singleton steps s ih =>
    rw [chronicle_concat, (valid_chronicle h steps).begun_next, ih, tracker_chronicle]
    exact (count_concat t issues steps s).symm

/-- The entries hold every event of the run. -/
theorem events_chronicle (h : make config control = .ok t) (steps : List Step) :
    (t.chronicle steps).entries.flatMap Entry.events = t.events steps := by
  induction steps using List.reverseRecOn with
  | nil => rfl
  | append_singleton steps s ih =>
    rw [chronicle_concat, (valid_chronicle h steps).events_next, ih, events_append,
      tracker_chronicle, events_singleton]

theorem chunks_chronicle (h : make config control = .ok t) (steps : List Step) :
    (t.chronicle steps).entries.flatMap (fun e => Event.chunks e.events) =
      Event.chunks (t.events steps) := by
  rw [← events_chronicle h steps]
  exact Entry.flatMap_chunks _

/-- While fewer generations are issued than there are words, a generation is one number. -/
theorem toNat_generation (h : make config control = .ok t) {steps : List Step}
    (hfew : t.issued steps < UInt64.size) {e : Entry} (he : e ∈ (t.chronicle steps).entries) :
    e.connection.id.generation.toNat = e.number + 1 := by
  have hnumber := (valid_chronicle h steps).number_lt e he
  rw [begun_chronicle h] at hnumber
  rw [(valid_chronicle h steps).generation_eq e he]
  exact UInt64.toNat_ofNat_of_lt' (by omega)

/-- The rest of a run adds the entries of its own events. -/
theorem exists_later (h : make config control = .ok t) (first rest : List Step) :
    ∃ later, (t.chronicle first).Extends (t.chronicle (first ++ rest)) later ∧
      later.flatMap Entry.events = (t.run first).events rest := by
  rcases (t.chronicle first).exists_extends rest with ⟨later, hext⟩
  rw [← chronicle_append] at hext
  refine ⟨later, hext, ?_⟩
  -- The whole run and its first part tell all their events, so what is later tells the others.
  have hall := events_chronicle h (first ++ rest)
  rw [hext.entries_eq, List.flatMap_append, events_chronicle h first, events_append] at hall
  exact List.append_cancel_left hall

end Made

/-- The tracker that forwards the data of every known protocol, under the standard bounds. -/
def standard : Tracker :=
  ⟨.standard, .everything, .empty Config.standard.maxConnections Config.standard.capacityPolicy, {}⟩

theorem make_standard : make .standard .everything = .ok standard :=
  rfl

end Tracker

/-! ## A session

What a client of a web server does, as the concrete runs of the other modules have it. -/

namespace Session

def requestLine : Bytes :=
  Bytes.ofChars
    [ 'G', 'E', 'T', ' ', '/', ' ', 'H', 'T', 'T', 'P', '/', '1', '.', '1', '\r', '\n', '\r', '\n' ]

variable (key : ConnectionKey)

/-- The client connects. -/
def connecting : Opened where
  key := key
  startTicks := 1
  address := .inet (.v4 ⟨10, 0, 0, 1⟩ 80)
  hint := .connect
  operation := .connect
  timestamp := ⟨100⟩

/-- The client writes a request. -/
def requesting : Transfer where
  key := key
  startTicks := 1
  direction := .egress
  payload := .flat requestLine
  byteCount := 18
  operation := .write
  ssl := false
  timestamp := ⟨200⟩

/-- The client sends a file that is larger than what lies between two reports. -/
def sending : FileTransfer where
  key := key
  startTicks := 1
  byteCount := 70000
  timestamp := ⟨300⟩

def connect : Step :=
  .observe (.opened (connecting key))

def request : Step :=
  .observe (.data (requesting key))

def file : Step :=
  .observe (.sendfile (sending key))

def close : Step :=
  .observe (.closed { key, timestamp := ⟨400⟩ })

/-- A request and a file on one connection, and another request on the same handle. -/
def upload : List Step :=
  [connect key, request key, file key, close key, request key]

end Session

end FlowTrace
