import FlowTrace.Proofs.Chronicle

/-!
# Event protocol — what a reader of one incarnation's events may rely on

The events of an incarnation are an announcement, if it was opened on a traceable address, then data
and periodic reports in any mix, then the close with its last report, if it was closed. Evictions,
sweeps and replacements end an incarnation without a word, and nothing is said of it afterwards. The
first report, and no other, is marked as the first.

The invariant of a live incarnation is `IsUnderWay`: the shape without the ending, and the link
between the reports so far and the mark that the connection itself keeps.
-/

namespace FlowTrace

/-! ## The shape -/

namespace Event

/-- Data, or a report before the close. -/
def IsInterim : Event → Prop
  | data _ => True
  | stats r => r.isClose = false
  | opened _ | closed _ => False

/-- At most an announcement. -/
def IsOpening (xs : List Event) : Prop :=
  xs = [] ∨ ∃ o, xs = [opened o]

/-- At most a close, directly followed by the last report, of the same byte counts. -/
def IsEnding (xs : List Event) : Prop :=
  xs = [] ∨ ∃ c r, xs = [closed c, stats r] ∧ r.isClose = true ∧ r.written = c.written ∧
    r.received = c.received

/-- The reports among some events. -/
def reports (xs : List Event) : List StatsReport :=
  xs.filterMap stats?

/-- Exactly the first report is marked as the first. -/
def FirstMarked (rs : List StatsReport) : Prop :=
  ∀ i r, rs[i]? = some r → (r.isFirst = true ↔ i = 0)

/-- The events of one incarnation, from its beginning to its end. -/
structure IsLifecycle (xs : List Event) : Prop where
  one_id : ∀ x ∈ xs, ∀ y ∈ xs, x.id = y.id
  shape : ∃ opening body ending, xs = opening ++ body ++ ending ∧ IsOpening opening ∧
    (∀ x ∈ body, x.IsInterim) ∧ IsEnding ending
  first_marked : FirstMarked (reports xs)

theorem firstMarked_nil : FirstMarked [] := by
  intro i r h
  cases h

theorem FirstMarked.concat {rs : List StatsReport} {r : StatsReport} (h : FirstMarked rs)
    (hr : r.isFirst = rs.isEmpty) : FirstMarked (rs ++ [r]) := by
  intro i r' hi
  rcases Nat.lt_or_ge i rs.length with hlt | hge
  · rw [List.getElem?_append_left hlt] at hi
    exact h i r' hi
  · -- The place past the old reports is the last one.
    rw [List.getElem?_append_right hge] at hi
    rcases List.getElem?_eq_some_iff.1 hi with ⟨hzero, hlast⟩
    have hi' : i = rs.length := by
      simp only [List.length_singleton] at hzero
      omega
    have hlast : r = r' := by simpa using hlast
    rw [← hlast, hr, hi', List.isEmpty_iff, List.length_eq_zero_iff]

end Event

open Event

/-! ## What one incident adds -/

/-- Events that may follow while the incarnation lives, with what they leave of it. -/
structure Continues (c : Connection) (xs : List Event) (c' : Connection) : Prop where
  interim : ∀ x ∈ xs, x.IsInterim
  id_eq : ∀ x ∈ xs, x.id = c.id
  id_kept : c'.id = c.id
  /-- There is at most one report, which is marked if there was none before. -/
  report : ∃ report? : Option StatsReport, reports xs = report?.toList ∧
    (∀ r, report? = some r → r.isFirst = !c.isReported) ∧
    c'.isReported = (c.isReported || report?.isSome)

namespace Continues

/-- Nothing is said. -/
theorem silent {c c' : Connection} (hid : c'.id = c.id) (hreported : c'.isReported = c.isReported) :
    Continues c [] c' := by
  refine ⟨?_, ?_, hid, none, rfl, ?_, ?_⟩
  · intro x hx
    cases hx
  · intro x hx
    cases hx
  · intro r hr
    cases hr
  · simp [hreported]

/-- Chunks are not reports. -/
theorem reports_map_data (chunks : List DataChunk) : reports (chunks.map .data) = [] := by
  induction chunks with
  | nil => rfl
  | cons chunk chunks ih => exact ih

theorem reports_map_stats (rs : List StatsReport) : reports (rs.map .stats) = rs := by
  induction rs with
  | nil => rfl
  | cons r rs ih => exact congrArg (r :: ·) ih

theorem move (c : Connection) (config : Config) (control : Control) (force : Bool) (m : Movement) :
    Continues c (c.move config control force m).events
      (c.account config.statsThreshold m).1 := by
  have hreport : ∀ r, (c.account config.statsThreshold m).2 = some r →
      r.id = c.id ∧ r.isClose = false ∧ r.isFirst = !c.isReported :=
    fun r hr => Connection.account_report c _ _ hr
  -- Every event is a chunk or the one report.
  have hmem : ∀ x ∈ (c.move config control force m).events,
      (∃ chunk ∈ (c.forward config.chunkLimits control force m).1, x = .data chunk) ∨
        ∃ r, (c.account config.statsThreshold m).2 = some r ∧ x = .stats r := by
    intro x hx
    rcases List.mem_append.1 hx with hx | hx
    · rcases List.mem_map.1 hx with ⟨chunk, hchunk, rfl⟩
      exact Or.inl ⟨chunk, hchunk, rfl⟩
    · rcases List.mem_map.1 hx with ⟨r, hr, rfl⟩
      exact Or.inr ⟨r, Option.mem_toList.1 hr, rfl⟩
  refine ⟨?_, ?_, Connection.id_account c _ _, (c.account config.statsThreshold m).2, ?_, ?_, ?_⟩
  · intro x hx
    rcases hmem x hx with ⟨_, _, rfl⟩ | ⟨r, hr, rfl⟩
    · trivial
    · exact (hreport r hr).2.1
  · intro x hx
    rcases hmem x hx with ⟨chunk, hchunk, rfl⟩ | ⟨r, hr, rfl⟩
    · exact Connection.id_of_mem_forward control hchunk
    · exact (hreport r hr).1
  · have hparts : reports (c.move config control force m).events =
        reports ((c.forward config.chunkLimits control force m).1.map .data) ++
          reports ((c.account config.statsThreshold m).2.toList.map .stats) :=
      List.filterMap_append
    rw [hparts, reports_map_data, reports_map_stats, List.nil_append]
  · intro r hr
    exact (hreport r hr).2.2
  · exact Connection.isReported_account c _ _

/-- Every incident but the first and the last one. -/
theorem undergo (c : Connection) (config : Config) (control : Control) {i : Incident}
    (hopening : i.isOpening = false) (hclosing : i.isClosing = false) :
    Continues c (c.undergo config control i).events (c.undergo config control i).connection := by
  cases hmoving : c.moving? config i with
  | some p =>
    rcases p with ⟨c', m⟩
    have hcontinues := move c' config control (control.forces c.id.key.pid) m
    rcases Connection.undergo_of_moving control hmoving with ⟨hconnection, hevents⟩
    rw [hconnection, hevents]
    -- Classification leaves the identity and the mark of a report alone.
    rcases Connection.moving?_frame hmoving with ⟨hsame, hmark, -, -⟩
    rcases hcontinues with ⟨hinterim, hid, hkept, hreport⟩
    rw [hsame] at hid hkept
    rw [hmark] at hreport
    exact ⟨hinterim, hid, hkept, hreport⟩
  | none =>
    have hsilent : (c.undergo config control i).events = [] :=
      Connection.undergo_silent control hmoving hopening hclosing
    rw [hsilent]
    rcases Connection.undergo_of_not_moving control hmoving with h | ⟨_, h⟩ | ⟨_, _, h⟩ <;>
      rw [h] <;> exact silent rfl rfl

end Continues

/-! ## Live and ended incarnations -/

/-- The events of an incarnation that lives as `c`. -/
structure IsUnderWay (xs : List Event) (c : Connection) : Prop where
  id_eq : ∀ x ∈ xs, x.id = c.id
  shape : ∃ opening body, xs = opening ++ body ∧ IsOpening opening ∧ ∀ x ∈ body, x.IsInterim
  first_marked : FirstMarked (reports xs)
  isReported_eq : c.isReported = !(reports xs).isEmpty

namespace IsUnderWay

variable {xs ys : List Event} {c c' : Connection}

theorem nil (h : c.isReported = false) : IsUnderWay [] c := by
  refine ⟨?_, ⟨[], [], rfl, Or.inl rfl, ?_⟩, firstMarked_nil, h⟩
  · intro x hx
    cases hx
  · intro x hx
    cases hx

theorem isLifecycle (h : IsUnderWay xs c) : IsLifecycle xs := by
  rcases h.shape with ⟨opening, body, hxs, hopening, hbody⟩
  refine ⟨?_, ⟨opening, body, [], by simpa using hxs, hopening, hbody, Or.inl rfl⟩, h.first_marked⟩
  intro x hx y hy
  rw [h.id_eq x hx, h.id_eq y hy]

/-- The next report is marked exactly if there was none. -/
theorem firstMarked_concat (h : IsUnderWay xs c) {r : StatsReport}
    (hr : r.isFirst = !c.isReported) :
    FirstMarked (reports xs ++ [r]) := by
  apply h.first_marked.concat
  rw [hr, h.isReported_eq, Bool.not_not]

theorem append (h : IsUnderWay xs c) (hys : Continues c ys c') : IsUnderWay (xs ++ ys) c' := by
  rcases h.shape with ⟨opening, body, hxs, hopening, hbody⟩
  rcases hys.report with ⟨report?, hreports, hmark, hreported⟩
  have hall : reports (xs ++ ys) = reports xs ++ report?.toList := by
    rw [← hreports]
    exact List.filterMap_append
  refine ⟨?_, ⟨opening, body ++ ys, ?_, hopening, ?_⟩, ?_, ?_⟩
  · intro x hx
    rcases List.mem_append.1 hx with hx | hx
    · rw [h.id_eq x hx, hys.id_kept]
    · rw [hys.id_eq x hx, hys.id_kept]
  · rw [hxs, List.append_assoc]
  · intro x hx
    rcases List.mem_append.1 hx with hx | hx
    · exact hbody x hx
    · exact hys.interim x hx
  · -- A new report is marked exactly if it is the first one.
    rw [hall]
    cases report? with
    | none => simpa using h.first_marked
    | some r => exact h.firstMarked_concat (hmark r rfl)
  · rw [hall, hreported, h.isReported_eq]
    cases report? <;> simp

theorem close (h : IsUnderWay xs c) {closing : Closing} {r : StatsReport}
    (hclosing : closing.id = c.id) (hid : r.id = c.id) (hfirst : r.isFirst = !c.isReported)
    (hclose : r.isClose = true) (hwritten : r.written = closing.written)
    (hreceived : r.received = closing.received) :
    IsLifecycle (xs ++ [.closed closing, .stats r]) := by
  rcases h.shape with ⟨opening, body, hxs, hopening, hbody⟩
  have hids : ∀ x ∈ xs ++ [.closed closing, .stats r], x.id = c.id := by
    intro x hx
    rcases List.mem_append.1 hx with hx | hx
    · exact h.id_eq x hx
    · simp only [List.mem_cons, List.not_mem_nil, or_false] at hx
      rcases hx with rfl | rfl
      · exact hclosing
      · exact hid
  refine ⟨?_, ⟨opening, body, [.closed closing, .stats r], by rw [hxs], hopening, hbody, ?_⟩, ?_⟩
  · intro x hx y hy
    rw [hids x hx, hids y hy]
  · exact Or.inr ⟨closing, r, rfl, hclose, hwritten, hreceived⟩
  · have hall : reports (xs ++ [.closed closing, .stats r]) = reports xs ++ [r] :=
      List.filterMap_append
    rw [hall]
    exact h.firstMarked_concat hfirst

/-- A close ends the events of an incarnation, with one last report or in silence. -/
theorem append_finish (h : IsUnderWay xs c) (timestamp : Timestamp) :
    IsLifecycle (xs ++ (c.finish timestamp).1) := by
  simp only [Connection.finish]
  split
  · simpa using h.isLifecycle
  · exact h.close rfl rfl rfl rfl rfl rfl

/-- The announcement of a fresh connection. -/
theorem announcement (c : Connection) (h : c.isReported = false) (o : Opened) :
    IsUnderWay (c.announcement o) c := by
  unfold Connection.announcement
  split
  · refine ⟨?_, ⟨_, [], (List.append_nil _).symm, Or.inr ⟨_, rfl⟩, ?_⟩, firstMarked_nil, h⟩
    · intro x hx
      rw [List.mem_singleton.1 hx]
      rfl
    · intro x hx
      cases hx
  · exact nil h

end IsUnderWay

/-! ## Lives and runs -/

namespace Life

variable {config : Config} {control : Control} {past : List Entry} {status : Option Connection}

/-- While an incarnation lives, its events are under way. -/
theorem underWay_invariant :
    Invariant config control fun past c => IsUnderWay (past.flatMap Entry.events) c := by
  constructor
  · intro id address role
    exact .nil rfl
  · intro past e hafter hclosing hway
    have hevents : (past ++ [e]).flatMap Entry.events =
        past.flatMap Entry.events ++ (e.reaction config control).events := by
      simp [hafter.events_eq]
    rw [hevents]
    cases hopening : e.incident.isOpening with
    | false => exact hway.append (.undergo e.connection config control hopening hclosing)
    | true =>
      -- An opening is the first entry, so there is nothing to be announced twice.
      rcases Incident.exists_of_isOpening hopening with ⟨o, hincident⟩
      rw [hafter.opening hopening] at hway ⊢
      have hfresh : e.connection.isReported = false := hway.isReported_eq
      simp only [Encounter.reaction, hincident]
      exact .announcement e.connection hfresh o

/-- The events of an incarnation are a lifecycle, whether it lives, was closed or has vanished. -/
theorem isLifecycle (h : Life config control past status) :
    IsLifecycle (past.flatMap Entry.events) := by
  rcases List.eq_nil_or_concat past with rfl | ⟨front, e, rfl⟩
  · exact absurd rfl h.ne_nil
  · have hlast : Life config control (front ++ e :: []) status := by
      simpa using h
    -- The last entry decides: it is a close, or it leaves the incarnation under way.
    have hway := underWay_invariant.of_met hlast
    have hafter := hlast.split.1
    rw [List.concat_eq_append]
    cases hclosing : e.incident.isClosing with
    | false => exact (underWay_invariant.step front e hafter hclosing hway).isLifecycle
    | true =>
      rcases Incident.exists_of_isClosing hclosing with ⟨timestamp, hincident⟩
      have hevents : (front ++ [e]).flatMap Entry.events =
          front.flatMap Entry.events ++ (e.connection.finish timestamp).1 := by
        simp [hafter.events_eq, Encounter.reaction, hincident, Connection.undergo]
      rw [hevents]
      exact hway.append_finish timestamp

end Life

namespace Connection

/-- Whatever befalls a connection is reported of that connection. -/
theorem id_of_mem_undergo (c : Connection) (config : Config) (control : Control) (i : Incident) :
    ∀ x ∈ (c.undergo config control i).events, x.id = c.id := by
  intro x hx
  cases hmoving : c.moving? config i with
  | none =>
    rcases events_of_not_moving control hmoving with
      hevents | ⟨opening, hid, hevents⟩ | ⟨closing, timestamp, hid, hevents⟩ <;> rw [hevents] at hx
    · cases hx
    · rw [List.mem_singleton.1 hx]
      exact hid
    · simp only [List.mem_cons, List.not_mem_nil, or_false] at hx
      rcases hx with rfl | rfl
      · exact hid
      · rfl
  | some p =>
    rcases p with ⟨c', m⟩
    rw [(undergo_of_moving control hmoving).2] at hx
    rw [(Continues.move c' config control _ m).id_eq x hx, (moving?_frame hmoving).1]

end Connection

namespace Tracker

variable {config : Config} {control : Control} {t : Tracker}

/-- An event tells the number of its entry. -/
theorem generation_of_event (h : make config control = .ok t) {steps : List Step}
    (hfew : t.issued steps < UInt64.size) {e : Entry} (he : e ∈ (t.chronicle steps).entries)
    {x : Event} (hx : x ∈ e.events) : x.id.generation.toNat = e.number + 1 := by
  rcases (valid_chronicle h steps).life_of_mem he with ⟨status, hlife⟩
  have hmem : e ∈ (t.chronicle steps).of e.number := Chronicle.mem_of he
  have hid : x.id = e.connection.id := by
    rw [hlife.events_eq hmem] at hx
    exact Connection.id_of_mem_undergo _ _ _ _ x hx
  simpa [hid] using toNat_generation h hfew he

/-- The events of a generation are those of one incarnation. -/
theorem events_of_generation (h : make config control = .ok t) {steps : List Step}
    (hfew : t.issued steps < UInt64.size) {n : Nat} {g : UInt64} (hg : g.toNat = n + 1) :
    (t.events steps).filter (·.id.generation = g) =
      ((t.chronicle steps).of n).flatMap Entry.events := by
  have hgeneration : ∀ e ∈ (t.chronicle steps).entries, ∀ x ∈ e.events,
      (x.id.generation = g ↔ e.number = n) := by
    intro e he x hx
    rw [← UInt64.toNat_inj, generation_of_event h hfew he hx, hg]
    exact Nat.add_right_cancel_iff
  rw [← events_chronicle h steps, Chronicle.of]
  -- An entry is kept or dropped as a whole, so the two filters agree entry by entry.
  generalize (t.chronicle steps).entries = entries at hgeneration
  induction entries with
  | nil => rfl
  | cons e entries ih =>
    have hrest := ih fun e' he' => hgeneration e' (List.mem_cons_of_mem e he')
    have hfirst := hgeneration e List.mem_cons_self
    by_cases hn : e.number = n
    · have hall : e.events.filter (·.id.generation = g) = e.events :=
        List.filter_eq_self.2 fun x hx => by simpa using (hfirst x hx).2 hn
      simp [hn, hall, hrest]
    · have hnone : e.events.filter (·.id.generation = g) = [] :=
        List.filter_eq_nil_iff.2 fun x hx => by simpa using fun hx' => hn ((hfirst x hx).1 hx')
      simp [hn, hnone, hrest]

/-- The events of any one generation, over a whole run, are the events of one incarnation from its
beginning to its end. -/
theorem events_lifecycle (h : make config control = .ok t) (steps : List Step)
    (hfew : t.issued steps < UInt64.size) (g : UInt64) :
    IsLifecycle ((t.events steps).filter (·.id.generation = g)) := by
  have hempty : IsLifecycle [] := by
    have hway : IsUnderWay [] (.start ⟨⟨0, 0⟩, 0, 0⟩ .unknown .unknown) := .nil rfl
    exact hway.isLifecycle
  cases hg : g.toNat with
  | zero =>
    -- Generations are issued from one on.
    have hnone : (t.events steps).filter (·.id.generation = g) = [] := by
      rw [List.filter_eq_nil_iff]
      intro x hx
      rw [← events_chronicle h steps] at hx
      rcases List.mem_flatMap.1 hx with ⟨e, he, hx⟩
      have hpositive := generation_of_event h hfew he hx
      intro hsame
      rw [of_decide_eq_true hsame, hg] at hpositive
      omega
    rw [hnone]
    exact hempty
  | succ n =>
    rw [events_of_generation h hfew hg]
    by_cases hnil : (t.chronicle steps).of n = []
    · rw [hnil]
      exact hempty
    · rcases (valid_chronicle h steps).life n hnil with ⟨status, hlife⟩
      exact hlife.isLifecycle

/-- The upload reports the connection, the request, the file and a periodic count, then the close
with the last count. The request after the close is of another generation. -/
theorem events_lifecycle_upload :
    make .standard .everything = .ok standard ∧
      standard.issued (Session.upload ⟨7, 3⟩) < UInt64.size ∧
      ((standard.events (Session.upload ⟨7, 3⟩)).filter (·.id.generation = 1)).length = 6 ∧
      IsLifecycle ((standard.events (Session.upload ⟨7, 3⟩)).filter (·.id.generation = 1)) := by
  have hfew : standard.issued (Session.upload ⟨7, 3⟩) < UInt64.size := by decide +kernel
  have hcount :
      ((standard.events (Session.upload ⟨7, 3⟩)).filter (·.id.generation = 1)).length = 6 := by
    decide +kernel
  exact ⟨make_standard, hfew, hcount, events_lifecycle make_standard _ hfew 1⟩

end Tracker

end FlowTrace
