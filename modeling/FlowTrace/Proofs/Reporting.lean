import FlowTrace.Proofs.Gate
import Mathlib.Data.List.Chain

/-!
# Reporting — a report whenever enough has moved

The bytes of both directions, sent or held back, of buffers or of files, count towards one threshold.
With the call that reaches it the whole total is reported, and counting starts over from there: a
call that is worth many thresholds is still one report.

A connection keeps the total of its last report. `Connection.Reported` ties it to the entries of the
incarnation: it is the last of the totals that were reported, and what has moved since is less than
the threshold. Totals are cut off at the largest word, so this holds as long as they stay below it by
the threshold, and the law that follows from it, `reports_exact`, does so too.
-/

namespace FlowTrace

/-! ## What is reported -/

/-- The combined total that a report tells. -/
def StatsReport.total (r : StatsReport) : Nat :=
  r.written + r.received

namespace Event

/-- The reports among some events that are not made at the close. -/
def periodic (xs : List Event) : List StatsReport :=
  (reports xs).filter (!·.isClose)

theorem periodic_data_stats (cs : List DataChunk) (report? : Option StatsReport)
    (h : ∀ r, report? = some r → r.isClose = false) :
    periodic (cs.map .data ++ report?.toList.map .stats) = report?.toList := by
  rw [periodic, reports_append, Continues.reports_map_data, Continues.reports_map_stats,
    List.nil_append, List.filter_eq_self]
  intro r hr
  simp [h r (Option.mem_toList.1 hr)]

end Event

/-- The bytes that an incident adds, whichever way they went. -/
def Connection.amount (c : Connection) (i : Incident) : Nat :=
  c.adds .egress i + c.adds .ingress i

namespace Entry

def amount (e : Entry) : Nat :=
  e.connection.amount e.incident

/-- The bytes that entries of an incarnation have moved, whichever way they went. -/
def total (es : List Entry) : Nat :=
  moved .egress es + moved .ingress es

def periodic (es : List Entry) : List StatsReport :=
  es.flatMap fun e => Event.periodic e.events

/-- The bytes that have moved since the last periodic report, or since the first entry. -/
def unreported (es : List Entry) : Nat :=
  es.foldl (fun count e => if (Event.periodic e.events).isEmpty then count + e.amount else 0) 0

/-- The totals from which the bytes are counted towards the threshold, one after the other. -/
def marks (es : List Entry) : List Nat :=
  0 :: (periodic es).map StatsReport.total

variable (es : List Entry) (e : Entry)

theorem total_concat : total (es ++ [e]) = total es + e.amount := by
  simp only [total, amount, Connection.amount, moved_append, moved, adds]
  omega

theorem unreported_concat :
    unreported (es ++ [e]) =
      if (Event.periodic e.events).isEmpty then unreported es + e.amount else 0 := by
  simp [unreported]

theorem marks_concat :
    marks (es ++ [e]) = marks es ++ (Event.periodic e.events).map StatsReport.total := by
  simp [marks, periodic]

end Entry

/-! ## One call -/

namespace Connection

variable {c c' : Connection} {config : Config} {control : Control} {i : Incident} {m : Movement}

theorem reportedTotal_of_moving (h : c.moving? config i = some (c', m)) :
    c'.reportedTotal = c.reportedTotal := by
  rcases moving?_cases h with ⟨o, _, _, rfl, _⟩ | ⟨_, _, _, rfl, _⟩
  · rcases sampled_eq c config o with ⟨_, _, _, _, _, hsampled⟩
    rw [hsampled]
  · rfl

/-- What is accounted is told by chunks, and then by a report if one is due. -/
theorem events_of_moving (control : Control) (h : c.moving? config i = some (c', m)) :
    (c.undergo config control i).events =
      (Event.chunks (c.undergo config control i).events).map Event.data ++
        (c'.account config.statsThreshold m).2.toList.map .stats := by
  rw [(undergo_of_moving control h).2]
  simp [move]

/-- What is not accounted is not reported on the way. -/
theorem periodic_of_not_moving (h : c.moving? config i = none) :
    Event.periodic (c.undergo config control i).events = [] := by
  rcases events_of_not_moving control h with hevents | ⟨_, _, hevents⟩ | ⟨_, _, _, hevents⟩ <;>
    rw [hevents] <;> rfl

theorem totals_of_not_moving (control : Control) (h : c.moving? config i = none) :
    (c.undergo config control i).connection.written = c.written ∧
      (c.undergo config control i).connection.received = c.received ∧
      (c.undergo config control i).connection.reportedTotal = c.reportedTotal := by
  rcases undergo_of_not_moving control h with hsame | ⟨_, htls⟩ | ⟨_, _, horder⟩
  · rw [hsame]
    exact ⟨rfl, rfl, rfl⟩
  · rw [htls]
    exact ⟨rfl, rfl, rfl⟩
  · rw [horder]
    exact ⟨rfl, rfl, rfl⟩

theorem written_add_received_addBytes (c : Connection) (d : Direction) (count : Nat)
    (hword : c.written + c.received + count ≤ maxWord) :
    (c.addBytes d count).written + (c.addBytes d count).received =
      c.written + c.received + count := by
  cases d with
  | egress =>
    have hwritten := saturate_of_le (n := c.written + count) (by omega)
    simp only [addBytes, hwritten]
    omega
  | ingress =>
    have hreceived := saturate_of_le (n := c.received + count) (by omega)
    simp only [addBytes, hreceived]
    omega

/-- A report is due if what has moved since the last one reaches the threshold, and then the whole
total is reported. -/
theorem account_due (c : Connection) (threshold : Nat) (m : Movement) (unreported : Nat)
    (hsince : unreported + c.reportedTotal = c.written + c.received)
    (hword : c.written + c.received + m.byteCount + threshold ≤ maxWord) :
    (c.account threshold m).1.written + (c.account threshold m).1.received =
        c.written + c.received + m.byteCount ∧
      if threshold ≤ unreported + m.byteCount then
        (c.account threshold m).1.reportedTotal = c.written + c.received + m.byteCount ∧
          ∃ r : StatsReport, (c.account threshold m).2 = some r ∧ r.id = c.id ∧ r.isClose = false ∧
            r.written = (c.account threshold m).1.written ∧
            r.received = (c.account threshold m).1.received
      else
        (c.account threshold m).1.reportedTotal = c.reportedTotal ∧
          (c.account threshold m).2 = none := by
  have hbytes := c.written_add_received_addBytes m.direction m.byteCount (by omega)
  have htotal : (c.addBytes m.direction m.byteCount).total =
      c.written + c.received + m.byteCount := by
    rw [total, hbytes]
    exact saturate_of_le (by omega)
  have hkept : (c.addBytes m.direction m.byteCount).reportedTotal = c.reportedTotal := by
    cases m.direction <;> rfl
  have hlimit : saturate (c.reportedTotal + threshold) = c.reportedTotal + threshold :=
    saturate_of_le (by omega)
  -- Nothing was cut off, so the two totals compare as what has moved since and the threshold do.
  by_cases hdue : threshold ≤ unreported + m.byteCount
  · have hreached : ¬c.written + c.received + m.byteCount < c.reportedTotal + threshold := by omega
    have haccount : c.account threshold m =
        ({ c.addBytes m.direction m.byteCount with
            reportedTotal := c.written + c.received + m.byteCount, isReported := true },
          some ((c.addBytes m.direction m.byteCount).report m.timestamp false)) := by
      simp [account, htotal, hkept, hlimit, hreached]
    rw [haccount, if_pos hdue]
    exact ⟨hbytes, rfl, _, rfl, id_addBytes c _ _, rfl, rfl, rfl⟩
  · have hbelow : c.written + c.received + m.byteCount < c.reportedTotal + threshold := by omega
    have haccount : c.account threshold m = (c.addBytes m.direction m.byteCount, none) := by
      simp [account, htotal, hkept, hlimit, hbelow]
    rw [haccount, if_neg hdue]
    exact ⟨hbytes, hkept, rfl⟩

/-- What an incident that is accounted tells and leaves. -/
theorem undergo_due (control : Control) (h : c.moving? config i = some (c', m)) {unreported : Nat}
    (hsince : unreported + c.reportedTotal = c.written + c.received)
    (hword : c.written + c.received + c.amount i + config.statsThreshold ≤ maxWord) :
    (c.undergo config control i).connection.written +
        (c.undergo config control i).connection.received =
          c.written + c.received + c.amount i ∧
      if config.statsThreshold ≤ unreported + c.amount i then
        (c.undergo config control i).connection.reportedTotal =
            c.written + c.received + c.amount i ∧
          ∃ r : StatsReport, (c.undergo config control i).events =
              (Event.chunks (c.undergo config control i).events).map Event.data ++ [Event.stats r] ∧
            r.id = c.id ∧ r.isClose = false ∧
            r.written = (c.undergo config control i).connection.written ∧
            r.received = (c.undergo config control i).connection.received
      else
        (c.undergo config control i).connection.reportedTotal = c.reportedTotal ∧
          (c.undergo config control i).events =
            (Event.chunks (c.undergo config control i).events).map Event.data := by
  -- A sample leaves all totals alone, so it does not matter that the movement is accounted after it.
  rcases moving?_frame h with ⟨hid, -, -, hposition⟩
  have hwritten : c'.written = c.written := hposition .egress
  have hreceived : c'.received = c.received := hposition .ingress
  have hmark : c'.reportedTotal = c.reportedTotal := reportedTotal_of_moving h
  have hamount : c.amount i = m.byteCount := by
    rw [amount, adds_of_moving .egress h, adds_of_moving .ingress h]
    cases m.direction <;> simp
  have hevents := events_of_moving control h
  rw [hamount] at hword ⊢
  have hdue := c'.account_due config.statsThreshold m unreported
    (by rw [hwritten, hreceived, hmark, hsince]) (by rwa [hwritten, hreceived])
  rw [hwritten, hreceived, hmark, hid] at hdue
  rcases hdue with ⟨htotal, hreport⟩
  rw [(undergo_of_moving control h).1]
  refine ⟨htotal, ?_⟩
  split at hreport
  · next hreached =>
    rcases hreport with ⟨hmarked, r, hr, hrest⟩
    rw [if_pos hreached]
    rw [hr] at hevents
    exact ⟨hmarked, r, hevents, hrest⟩
  · next hbelow =>
    rcases hreport with ⟨hmarked, hnone⟩
    rw [if_neg hbelow]
    rw [hnone] at hevents
    exact ⟨hmarked, by simpa using hevents⟩

/-! ## The marks of an incarnation -/

/-- What the entries of an incarnation have left of the totals, and of the mark of the last report. -/
structure Reported (threshold : Nat) (past : List Entry) (c : Connection) : Prop where
  total_eq : c.written + c.received = Entry.total past
  /-- What was reported and what has moved since is all that has moved. -/
  unreported_add : Entry.unreported past + c.reportedTotal = Entry.total past
  unreported_lt : Entry.unreported past < threshold
  last_eq : (Entry.marks past).getLast? = some c.reportedTotal
  spaced : (Entry.marks past).IsChain fun a b => a + threshold ≤ b

namespace Reported

variable {threshold : Nat} {past : List Entry} {e : Entry}

theorem start (hthreshold : threshold ≠ 0) (id : ConnectionId) (address : RemoteAddress)
    (role : Role) : Reported threshold [] (.start id address role) :=
  ⟨rfl, rfl, Nat.pos_of_ne_zero hthreshold, rfl, List.isChain_singleton 0⟩

/-- Without a report the mark stays, and what has moved adds to the bytes since. -/
theorem concat_of_none (h : Reported threshold past c) (hnone : Event.periodic e.events = [])
    (htotal : c'.written + c'.received = c.written + c.received + e.amount)
    (hmark : c'.reportedTotal = c.reportedTotal)
    (hbelow : Entry.unreported past + e.amount < threshold) :
    Reported threshold (past ++ [e]) c' := by
  have hunreported : Entry.unreported (past ++ [e]) = Entry.unreported past + e.amount := by
    simp [Entry.unreported_concat, hnone]
  have hmarks : Entry.marks (past ++ [e]) = Entry.marks past := by
    simp [Entry.marks_concat, hnone]
  have hsum := h.unreported_add
  refine ⟨?_, ?_, ?_, ?_, ?_⟩
  · rw [htotal, Entry.total_concat, h.total_eq]
  · rw [hunreported, hmark, Entry.total_concat]
    omega
  · rwa [hunreported]
  · rw [hmarks, hmark]
    exact h.last_eq
  · rw [hmarks]
    exact h.spaced

/-- A report moves the mark to the whole total, past the mark before by the threshold at least. -/
theorem concat_of_some (h : Reported threshold past c) (hthreshold : threshold ≠ 0)
    {r : StatsReport} (hsome : Event.periodic e.events = [r])
    (htotal : c'.written + c'.received = c.written + c.received + e.amount)
    (hr : r.total = c'.written + c'.received) (hmark : c'.reportedTotal = c'.written + c'.received)
    (hdue : threshold ≤ Entry.unreported past + e.amount) :
    Reported threshold (past ++ [e]) c' := by
  have hunreported : Entry.unreported (past ++ [e]) = 0 := by
    simp [Entry.unreported_concat, hsome]
  have hmarks : Entry.marks (past ++ [e]) = Entry.marks past ++ [c'.reportedTotal] := by
    simp [Entry.marks_concat, hsome, hr, hmark]
  have hsum := h.unreported_add
  have hpast := h.total_eq
  refine ⟨?_, ?_, ?_, ?_, ?_⟩
  · rw [htotal, Entry.total_concat, hpast]
  · rw [hunreported, hmark, htotal, Entry.total_concat, hpast, Nat.zero_add]
  · rw [hunreported]
    exact Nat.pos_of_ne_zero hthreshold
  · simp [hmarks]
  · rw [hmarks]
    -- The new mark follows the last one, which is the one that the connection has kept.
    refine h.spaced.append (List.isChain_singleton _) ?_
    intro a ha b hb
    rw [h.last_eq] at ha
    cases ha
    cases hb
    omega

/-- Every entry leaves the mark where it belongs. -/
theorem step {config : Config} {control : Control} (hthreshold : config.statsThreshold ≠ 0)
    (hafter : e.ComesAfter config control past)
    (h : Reported config.statsThreshold past e.connection)
    (hword : Entry.total (past ++ [e]) + config.statsThreshold ≤ maxWord) :
    Reported config.statsThreshold (past ++ [e]) (e.reaction config control).connection := by
  have hevents : e.events = (e.connection.undergo config control e.incident).events :=
    hafter.events_eq
  cases hmoving : e.connection.moving? config e.incident with
  | none =>
    -- What is not accounted adds nothing to what has moved since.
    have hamount : e.amount = 0 := by
      simp [Entry.amount, amount, adds_of_not_moving _ hmoving]
    rcases totals_of_not_moving control hmoving with ⟨hwritten, hreceived, hmark⟩
    refine h.concat_of_none ?_ ?_ hmark ?_
    · rw [hevents]
      exact periodic_of_not_moving hmoving
    · rw [Encounter.reaction, hwritten, hreceived, hamount, Nat.add_zero]
    · rw [hamount]
      exact h.unreported_lt
  | some p =>
    rw [Entry.total_concat, ← h.total_eq] at hword
    rcases undergo_due control hmoving (h.unreported_add.trans h.total_eq.symm) hword with
      ⟨htotal, hreport⟩
    split at hreport
    · next hdue =>
      rcases hreport with ⟨hmark, r, hr, -, hclose, hwritten, hreceived⟩
      refine h.concat_of_some hthreshold (r := r) ?_ htotal ?_ (hmark.trans htotal.symm) hdue
      · rw [hevents, hr]
        exact Event.periodic_data_stats _ (some r) (by simpa using hclose)
      · rw [StatsReport.total, hwritten, hreceived]
        rfl
    · next hbelow =>
      rcases hreport with ⟨hmark, hnone⟩
      refine h.concat_of_none ?_ htotal hmark (Nat.lt_of_not_le hbelow)
      rw [hevents, hnone]
      simpa using Event.periodic_data_stats _ none (by simp)

end Reported

end Connection

namespace Life

variable {config : Config} {control : Control} {past more : List Entry} {status : Option Connection}
variable {e : Entry}

/-- Totals that stay below the largest word are not cut off. -/
theorem total_of_lt {c : Connection} (h : Life config control past (some c))
    (hword : c.written + c.received < maxWord) : Entry.total past = c.written + c.received := by
  have hwritten : c.written = saturate (Entry.moved .egress past) :=
    (position_invariant .egress).of_live h
  have hreceived : c.received = saturate (Entry.moved .ingress past) :=
    (position_invariant .ingress).of_live h
  simp only [saturate, Entry.total] at *
  omega

theorem reported_invariant (hthreshold : config.statsThreshold ≠ 0) :
    Invariant config control fun past c =>
      Entry.total past + config.statsThreshold ≤ maxWord →
        c.Reported config.statsThreshold past := by
  constructor
  · intro id address role _
    exact .start hthreshold id address role
  · intro past e hafter hclosing hpast hword
    have hbefore : Entry.total past + config.statsThreshold ≤ maxWord := by
      rw [Entry.total_concat] at hword
      omega
    exact (hpast hbefore).step hthreshold hafter hword

/-- A call is reported after its chunks if what has moved since the last report reaches the threshold,
and is not reported otherwise. -/
theorem events_of_call (hthreshold : config.statsThreshold ≠ 0)
    (h : Life config control (past ++ e :: more) status) (hcall : e.call?.isSome = true)
    (hword : Entry.total (past ++ [e]) + config.statsThreshold ≤ maxWord) :
    if config.statsThreshold ≤ Entry.unreported past + e.amount then
      ∃ r : StatsReport, e.events = (Event.chunks e.events).map Event.data ++ [Event.stats r] ∧
        r.id = e.connection.id ∧ r.isClose = false ∧
        r.written = Entry.moved .egress (past ++ [e]) ∧
        r.received = Entry.moved .ingress (past ++ [e])
    else e.events = (Event.chunks e.events).map Event.data := by
  have hafter := h.split.1
  rcases Encounter.isSome_call?_iff.1 hcall with ⟨c, m, hmoving⟩
  have hposition : ∀ d, (e.reaction config control).connection.position d =
      Entry.moved d (past ++ [e]) := by
    intro d
    have hle : Entry.moved d (past ++ [e]) ≤ Entry.total (past ++ [e]) := by
      cases d <;> simp [Entry.total]
    rw [(position_invariant d).step past e hafter (Encounter.isClosing_of_call? hcall)
      ((position_invariant d).of_met h)]
    exact saturate_of_le (by omega)
  rw [Entry.total_concat] at hword
  have hmet := (reported_invariant hthreshold).of_met h (by omega)
  rw [← hmet.total_eq] at hword
  have hdue := (Connection.undergo_due control hmoving
    (hmet.unreported_add.trans hmet.total_eq.symm) hword).2
  rw [hafter.events_eq]
  split at hdue
  · next hreached =>
    have hreached : config.statsThreshold ≤ Entry.unreported past + e.amount := hreached
    rcases hdue with ⟨-, r, hr, hid, hclose, hwritten, hreceived⟩
    rw [if_pos hreached]
    exact ⟨r, hr, hid, hclose, hwritten.trans (hposition .egress),
      hreceived.trans (hposition .ingress)⟩
  · next hbelow =>
    have hbelow : ¬config.statsThreshold ≤ Entry.unreported past + e.amount := hbelow
    rw [if_neg hbelow]
    exact hdue.2

/-- The marks of a whole incarnation, closed or not. -/
theorem exists_reported (hthreshold : config.statsThreshold ≠ 0)
    (h : Life config control past status)
    (hword : Entry.total past + config.statsThreshold ≤ maxWord) :
    ∃ c : Connection, c.Reported config.statsThreshold past := by
  -- The last entry may be the close, which leaves no connection but meets one.
  rcases List.eq_nil_or_concat' past with rfl | ⟨front, e, rfl⟩
  · exact absurd rfl h.ne_nil
  · have hbefore : Entry.total front + config.statsThreshold ≤ maxWord := by
      rw [Entry.total_concat] at hword
      omega
    exact ⟨_, ((reported_invariant hthreshold).of_met h hbefore).step hthreshold h.split.1 hword⟩

end Life

/-- Numbers that are spaced by a step leave room for as many steps. -/
theorem add_length_mul_le_of_isChain {step first last : Nat} {rest : List Nat}
    (h : (first :: rest).IsChain fun a b => a + step ≤ b)
    (hlast : (first :: rest).getLast? = some last) : first + rest.length * step ≤ last := by
  induction rest generalizing first with
  | nil =>
    cases hlast
    simp
  | cons second rest ih =>
    rw [List.isChain_cons_cons] at h
    rw [List.getLast?_cons_cons] at hlast
    have hrest := ih h.2 hlast
    rw [List.length_cons, Nat.succ_mul]
    omega

/-! ## Runs -/

namespace Tracker

variable {config : Config} {control : Control} {t : Tracker}

/-- The law of periodic reports, as long as totals and threshold together fit a word. What a tracked
connection has moved since its last report is less than the threshold. A call is reported, once and
after its data, exactly if it makes this reach the threshold. So the periodic reports of an
incarnation are spaced by the threshold, and no more than fit its total. -/
theorem reports_exact (h : make config control = .ok t) (steps : List Step) :
    (∀ key v, (t.run steps).connection? key = some v →
      v.written + v.received + config.statsThreshold ≤ maxWord →
        v.reportedTotal ≤ v.written + v.received ∧
          v.written + v.received - v.reportedTotal < config.statsThreshold) ∧
    ∀ n,
      (∀ past e more, (t.chronicle steps).of n = past ++ e :: more → e.call?.isSome = true →
        Entry.total (past ++ [e]) + config.statsThreshold ≤ maxWord →
          if config.statsThreshold ≤ Entry.unreported past + e.amount then
            ∃ r : StatsReport, e.events = (Event.chunks e.events).map Event.data ++ [Event.stats r] ∧
              r.id = e.connection.id ∧ r.isClose = false ∧
              r.written = Entry.moved .egress (past ++ [e]) ∧
              r.received = Entry.moved .ingress (past ++ [e])
          else e.events = (Event.chunks e.events).map Event.data) ∧
      (Entry.total ((t.chronicle steps).of n) + config.statsThreshold ≤ maxWord →
        (Entry.periodic ((t.chronicle steps).of n)).IsChain
            (fun a b => a.total + config.statsThreshold ≤ b.total) ∧
          (Entry.periodic ((t.chronicle steps).of n)).length ≤
            Entry.total ((t.chronicle steps).of n) / config.statsThreshold) := by
  have hthreshold : config.statsThreshold ≠ 0 :=
    Config.bound_ne_zero (make_eq_ok h).2.1 .statsThreshold (by simp [Config.bounds])
  refine ⟨?_, ?_⟩
  · intro key v hv hword
    rcases Option.map_eq_some_iff.1 hv with ⟨c, hfound, rfl⟩
    have hlive := life_of_find? h hfound
    have hword : c.written + c.received + config.statsThreshold ≤ maxWord := hword
    have hreported : c.Reported config.statsThreshold
        ((t.chronicle steps).of ((t.chronicle steps).number key)) := by
      apply (Life.reported_invariant hthreshold).of_live hlive
      rwa [hlive.total_of_lt (by omega)]
    have hsum := hreported.unreported_add.trans hreported.total_eq.symm
    have hlt := hreported.unreported_lt
    show c.reportedTotal ≤ c.written + c.received ∧
      c.written + c.received - c.reportedTotal < config.statsThreshold
    omega
  · intro n
    refine ⟨?_, ?_⟩
    · intro past e more hof hcall hword
      rcases exists_life h steps (n := n) (by simp [hof]) with ⟨status, hlife⟩
      rw [hof] at hlife
      exact hlife.events_of_call hthreshold hcall hword
    · intro hword
      by_cases hnil : (t.chronicle steps).of n = []
      · simp [hnil, Entry.periodic]
      · rcases exists_life h steps hnil with ⟨status, hlife⟩
        rcases hlife.exists_reported hthreshold hword with ⟨c, hreported⟩
        -- The marks start from zero and end at what was reported, within the total.
        have hspaced := hreported.spaced
        have hroom := add_length_mul_le_of_isChain hspaced hreported.last_eq
        have hsum := hreported.unreported_add
        constructor
        · exact (List.isChain_map _).1 hspaced.tail
        · rw [Nat.le_div_iff_mul_le (Nat.pos_of_ne_zero hthreshold)]
          rw [List.length_map] at hroom
          omega

/-- The file of the upload is reported together with the request, which was not reported before. The
total has room for this report only. -/
theorem reports_exact_upload :
    (∃ (e : Entry) (r : StatsReport), ((standard.chronicle (Session.upload ⟨7, 3⟩)).of 0)[2]? = some e ∧
        e.events = (Event.chunks e.events).map Event.data ++ [Event.stats r] ∧ r.written = 70018 ∧
        r.received = 0) ∧
      (Entry.periodic ((standard.chronicle (Session.upload ⟨7, 3⟩)).of 0)).length ≤ 1 ∧
      ∃ v, (standard.run ((Session.upload ⟨7, 3⟩).take 2)).connection? ⟨7, 3⟩ = some v ∧
        v.written + v.received - v.reportedTotal < 65536 := by
  generalize hall : (standard.chronicle (Session.upload ⟨7, 3⟩)).of 0 = all
  have htotal : Entry.total all = 70018 := by
    rw [← hall]
    decide +kernel
  have hbefore : Entry.moved .egress (all.take 2) = 18 ∧ Entry.moved .ingress (all.take 2) = 0 ∧
      Entry.unreported (all.take 2) = 18 := by
    rw [← hall]
    decide +kernel
  have hfile : (all.drop 2).head?.any (fun e => e.call?.isSome && e.adds .egress == 70000 &&
      e.adds .ingress == 0) = true := by
    rw [← hall]
    decide +kernel
  refine ⟨?_, ?_, ?_⟩
  · rcases hlast : all.drop 2 with _ | ⟨e, more⟩
    · simp [hlast] at hfile
    · have hof : all = all.take 2 ++ e :: more := by rw [← hlast, List.take_append_drop]
      have hthird : all[2]? = some e := by
        rw [← List.head?_drop, hlast]
        rfl
      simp only [hlast, List.head?_cons, Option.any_some, Bool.and_eq_true, beq_iff_eq] at hfile
      rcases hfile with ⟨⟨hcall, hwritten⟩, hreceived⟩
      have hamount : e.amount = 70000 := by
        rw [Entry.amount, Connection.amount]
        exact congrArg₂ (· + ·) hwritten hreceived
      have hword : Entry.total (all.take 2 ++ [e]) + 65536 ≤ maxWord := by
        rw [Entry.total_concat, Entry.total, hbefore.1, hbefore.2.1, hamount]
        decide
      have hreport := ((reports_exact make_standard (Session.upload ⟨7, 3⟩)).2 0).1 _ e more
        (hall.trans hof) hcall hword
      rw [hbefore.2.2, hamount, if_pos (by decide)] at hreport
      rcases hreport with ⟨r, hevents, -, -, hrw, hrr⟩
      refine ⟨e, r, hthird, hevents, ?_, ?_⟩
      · rw [hrw, Entry.moved_append, hbefore.1, Entry.moved, hwritten]
        rfl
      · rw [hrr, Entry.moved_append, hbefore.2.1, Entry.moved, hreceived]
        rfl
  · have hlength := ((reports_exact make_standard (Session.upload ⟨7, 3⟩)).2 0).2
      (by rw [hall, htotal]; decide)
    rw [hall, htotal] at hlength
    exact hlength.2
  · have hfound : ((standard.run ((Session.upload ⟨7, 3⟩).take 2)).connection? ⟨7, 3⟩).any
        (fun v => v.written + v.received == 18) = true := by decide +kernel
    rcases (Option.any_eq_true _ _).1 hfound with ⟨v, hv, hbytes⟩
    rw [beq_iff_eq] at hbytes
    refine ⟨v, hv, ((reports_exact make_standard _).1 _ v hv ?_).2⟩
    rw [hbytes]
    decide

end Tracker

end FlowTrace
