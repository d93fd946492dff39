import FlowTrace.Proofs.Reporting

/-!
# Ceiling — reports once the totals no longer fit a word

`reports_exact` is about totals that stay below the largest word by the threshold. Past that, totals
are cut off at three places: those of the directions, their sum, and the mark that the sum has to
reach. While the sum is below the largest word nothing is lost by this, even if the mark is cut off:
the sum does not reach the mark in either case. But at the largest word the sum reaches every mark.
So from the call on that brings the combined total there, every call is reported, however little it
has moved: `reports_past_ceiling`.
-/

namespace FlowTrace

/-- A total at the largest word has reached all others. -/
theorem saturate_le_saturate_iff (a b : Nat) : saturate a ≤ saturate b ↔ a ≤ b ∨ maxWord ≤ b := by
  unfold saturate
  omega

namespace Entry

variable (es : List Entry) {e : Entry}

theorem unreported_le_total : unreported es ≤ total es := by
  induction es using List.reverseRecOn with
  | nil => exact Nat.le_refl 0
  | append_singleton es e ih =>
    rw [unreported_concat, total_concat]
    split
    · exact Nat.add_le_add_right ih _
    · exact Nat.zero_le _

/-- The bytes that had moved, whichever way they went, when the last periodic report was made. -/
def reportedTotal : Nat :=
  total es - unreported es

theorem reportedTotal_concat_of_nil (hnone : Event.periodic e.events = []) :
    reportedTotal (es ++ [e]) = reportedTotal es := by
  have hunreported : unreported (es ++ [e]) = unreported es + e.amount := by
    simp [unreported_concat, hnone]
  rw [reportedTotal, hunreported, total_concat]
  exact Nat.add_sub_add_right _ _ _

theorem reportedTotal_concat_of_ne_nil (hsome : Event.periodic e.events ≠ []) :
    reportedTotal (es ++ [e]) = total (es ++ [e]) := by
  have hunreported : unreported (es ++ [e]) = 0 := by
    simp [unreported_concat, hsome]
  simp [reportedTotal, hunreported]

end Entry

/-! ## One call -/

namespace Connection

variable {c c' : Connection} {m : Movement} {config : Config} {control : Control}
variable {past : List Entry} {e : Entry}

/-- What is left of the totals and the mark once they are cut off. -/
structure Clipped (past : List Entry) (c : Connection) : Prop where
  position_eq : ∀ d, c.position d = saturate (Entry.moved d past)
  reportedTotal_eq : c.reportedTotal = saturate (Entry.reportedTotal past)

/-- It does not matter that the directions are cut off before their sum is. -/
theorem total_of_position (h : ∀ d, c.position d = saturate (Entry.moved d past)) :
    c.total = saturate (Entry.total past) := by
  have hwritten : c.written = saturate (Entry.moved .egress past) := h .egress
  have hreceived : c.received = saturate (Entry.moved .ingress past) := h .ingress
  calc
    c.total = saturate
        (saturate (Entry.moved .egress past) + saturate (Entry.moved .ingress past)) := by
      rw [total, hwritten, hreceived]
    _ = saturate (Entry.total past) := by
      rw [saturate_add, Nat.add_comm, saturate_add, Nat.add_comm, Entry.total]

theorem reportedTotal_addBytes (d : Direction) (count : Nat) :
    (c.addBytes d count).reportedTotal = c.reportedTotal := by
  cases d <;> rfl

namespace Clipped

theorem start (id : ConnectionId) (address : RemoteAddress) (role : Role) :
    Clipped [] (.start id address role) := by
  refine ⟨?_, rfl⟩
  intro d
  cases d <;> rfl

theorem position_of_moving (h : Clipped past e.connection)
    (hmoving : e.connection.moving? config e.incident = some (c', m)) (d : Direction) :
    (c'.addBytes m.direction m.byteCount).position d = saturate (Entry.moved d (past ++ [e])) := by
  have hadds : Entry.moved d (past ++ [e]) =
      Entry.moved d past + if m.direction = d then m.byteCount else 0 := by
    simp [Entry.moved, Entry.adds, adds_of_moving d hmoving]
  rw [position_addBytes, (moving?_frame hmoving).2.2.2 d, h.position_eq, hadds]
  split
  · exact saturate_add _ _
  · simp

theorem reportedTotal_of_moving (h : Clipped past e.connection)
    (hmoving : e.connection.moving? config e.incident = some (c', m)) :
    (c'.addBytes m.direction m.byteCount).reportedTotal = saturate (Entry.reportedTotal past) := by
  calc
    (c'.addBytes m.direction m.byteCount).reportedTotal = c'.reportedTotal :=
      reportedTotal_addBytes _ _
    _ = e.connection.reportedTotal := Connection.reportedTotal_of_moving hmoving
    _ = saturate (Entry.reportedTotal past) := h.reportedTotal_eq

/-- A call is reported if the bytes since the last report reach the threshold, or the combined total
reaches the largest word. -/
theorem account_eq (h : Clipped past e.connection)
    (hmoving : e.connection.moving? config e.incident = some (c', m)) :
    c'.account config.statsThreshold m =
      if config.statsThreshold ≤ Entry.unreported past + e.amount ∨
          maxWord ≤ Entry.total (past ++ [e]) then
        ({ c'.addBytes m.direction m.byteCount with
            reportedTotal := saturate (Entry.total (past ++ [e])), isReported := true },
          some ((c'.addBytes m.direction m.byteCount).report m.timestamp false))
      else (c'.addBytes m.direction m.byteCount, none) := by
  have htotal : (c'.addBytes m.direction m.byteCount).total =
      saturate (Entry.total (past ++ [e])) := total_of_position (h.position_of_moving hmoving)
  have hmark := h.reportedTotal_of_moving hmoving
  -- Both sides of the comparison are cut off, so the sum reaches the mark in one of two ways.
  have hdue : (config.statsThreshold ≤ Entry.unreported past + e.amount ∨
      maxWord ≤ Entry.total (past ++ [e])) ↔
        saturate (saturate (Entry.reportedTotal past) + config.statsThreshold) ≤
          saturate (Entry.total (past ++ [e])) := by
    have hle := Entry.unreported_le_total past
    have hsum := Entry.total_concat past e
    rw [saturate_add, saturate_le_saturate_iff, Entry.reportedTotal]
    omega
  simp only [account, htotal, hmark, hdue]
  split
  · next hbelow => rw [if_neg (Nat.not_le.2 hbelow)]
  · next hreached => rw [if_pos (Nat.not_lt.1 hreached)]

end Clipped

/-- What an entry reports is what is accounted for it. -/
theorem periodic_of_moving (hafter : e.ComesAfter config control past)
    (hmoving : e.connection.moving? config e.incident = some (c', m)) :
    Event.periodic e.events = (c'.account config.statsThreshold m).2.toList := by
  calc
    Event.periodic e.events
        = Event.periodic (e.connection.undergo config control e.incident).events :=
      congrArg Event.periodic hafter.events_eq
    _ = (c'.account config.statsThreshold m).2.toList := by
      rw [events_of_moving control hmoving]
      apply Event.periodic_data_stats
      intro r hr
      exact (account_report c' _ m hr).2.1

theorem periodic_of_still (hafter : e.ComesAfter config control past)
    (hmoving : e.connection.moving? config e.incident = none) : Event.periodic e.events = [] :=
  (congrArg Event.periodic hafter.events_eq).trans (periodic_of_not_moving hmoving)

namespace Clipped

/-- Every entry leaves the mark as it is, once it is cut off. -/
theorem reportedTotal_reaction (hafter : e.ComesAfter config control past)
    (h : Clipped past e.connection) :
    (e.reaction config control).connection.reportedTotal =
      saturate (Entry.reportedTotal (past ++ [e])) := by
  cases hmoving : e.connection.moving? config e.incident with
  | none =>
    have hkept : (e.reaction config control).connection.reportedTotal =
        e.connection.reportedTotal := (totals_of_not_moving control hmoving).2.2
    rw [hkept, Entry.reportedTotal_concat_of_nil past (periodic_of_still hafter hmoving)]
    exact h.reportedTotal_eq
  | some p =>
    rcases p with ⟨c', m⟩
    have hmark : (e.reaction config control).connection.reportedTotal =
        (c'.account config.statsThreshold m).1.reportedTotal :=
      congrArg Connection.reportedTotal (undergo_of_moving control hmoving).1
    have hperiodic := periodic_of_moving hafter hmoving
    rw [h.account_eq hmoving] at hmark hperiodic
    split at hperiodic
    · next hdue =>
      -- The mark is moved to the total.
      have hsome : Event.periodic e.events ≠ [] := by simp [hperiodic]
      rw [hmark, if_pos hdue, Entry.reportedTotal_concat_of_ne_nil past hsome]
    · next hbelow =>
      have hnone : Event.periodic e.events = [] := by simpa using hperiodic
      rw [hmark, if_neg hbelow, Entry.reportedTotal_concat_of_nil past hnone]
      exact h.reportedTotal_of_moving hmoving

theorem step (hafter : e.ComesAfter config control past) (hclosing : e.incident.isClosing = false)
    (h : Clipped past e.connection) :
    Clipped (past ++ [e]) (e.reaction config control).connection := by
  refine ⟨?_, h.reportedTotal_reaction hafter⟩
  intro d
  exact (Life.position_invariant d).step past e hafter hclosing (h.position_eq d)

end Clipped

end Connection

/-! ## Runs -/

namespace Life

variable {config : Config} {control : Control} {past more : List Entry} {status : Option Connection}
variable {e : Entry}

theorem clipped_invariant :
    Invariant config control fun past c => c.Clipped past := by
  constructor
  · intro id address role
    exact .start id address role
  · intro past e hafter hclosing hpast
    exact hpast.step hafter hclosing

/-- What is reported, and when. -/
theorem periodic_ne_nil_iff (h : Life config control (past ++ e :: more) status) :
    Event.periodic e.events ≠ [] ↔
      e.call?.isSome = true ∧
        (config.statsThreshold ≤ Entry.unreported past + e.amount ∨
          maxWord ≤ Entry.total (past ++ [e])) := by
  have hafter := h.split.1
  have hmet : e.connection.Clipped past := clipped_invariant.of_met h
  have hcall : e.call?.isSome = true ↔
      ∃ c m, e.connection.moving? config e.incident = some (c, m) := Encounter.isSome_call?_iff
  rw [hcall]
  cases hmoving : e.connection.moving? config e.incident with
  | none => simp [Connection.periodic_of_still hafter hmoving]
  | some p =>
    rcases p with ⟨c', m⟩
    rw [Connection.periodic_of_moving hafter hmoving, hmet.account_eq hmoving]
    split
    · next hdue => simp [hdue]
    · next hbelow => simp [hbelow]

/-- A report comes after the chunks, and tells the totals with the call. -/
theorem events_of_mem_periodic (h : Life config control (past ++ e :: more) status)
    {r : StatsReport} (hr : r ∈ Event.periodic e.events) :
    e.events = (Event.chunks e.events).map Event.data ++ [Event.stats r] ∧
      r.id = e.connection.id ∧
      r.written = saturate (Entry.moved .egress (past ++ [e])) ∧
      r.received = saturate (Entry.moved .ingress (past ++ [e])) := by
  have hafter := h.split.1
  have hmet : e.connection.Clipped past := clipped_invariant.of_met h
  cases hmoving : e.connection.moving? config e.incident with
  | none => simp [Connection.periodic_of_still hafter hmoving] at hr
  | some p =>
    rcases p with ⟨c', m⟩
    have hbefore : e.events = (e.connection.undergo config control e.incident).events :=
      hafter.events_eq
    have hevents := Connection.events_of_moving control hmoving
    have haccount := hmet.account_eq hmoving
    rw [← hbefore] at hevents
    rw [Connection.periodic_of_moving hafter hmoving] at hr
    split at haccount
    · rw [haccount, Option.toList_some, List.mem_singleton] at hr
      rw [haccount, ← hr] at hevents
      refine ⟨hevents, ?_, ?_, ?_⟩ <;> rw [hr]
      · exact (Connection.id_addBytes c' _ _).trans (Connection.moving?_frame hmoving).1
      · exact hmet.position_of_moving hmoving .egress
      · exact hmet.position_of_moving hmoving .ingress
    · simp [haccount] at hr

end Life

namespace Tracker

variable {config : Config} {control : Control} {t : Tracker}

/-- Exactly those calls are reported that make the bytes since the last report reach the threshold,
or the combined total the largest word. A report comes after the data of the call, and tells the
totals with the call. -/
theorem reports_past_ceiling (h : make config control = .ok t) (steps : List Step) {n : Nat}
    {past more : List Entry} {e : Entry} (hof : (t.chronicle steps).of n = past ++ e :: more) :
    (Event.periodic e.events ≠ [] ↔
      e.call?.isSome = true ∧
        (config.statsThreshold ≤ Entry.unreported past + e.amount ∨
          maxWord ≤ Entry.total (past ++ [e]))) ∧
    ∀ r ∈ Event.periodic e.events,
      e.events = (Event.chunks e.events).map Event.data ++ [Event.stats r] ∧
        r.id = e.connection.id ∧
        r.written = saturate (Entry.moved .egress (past ++ [e])) ∧
        r.received = saturate (Entry.moved .ingress (past ++ [e])) := by
  rcases exists_life h steps (n := n) (by simp [hof]) with ⟨status, hlife⟩
  rw [hof] at hlife
  refine ⟨hlife.periodic_ne_nil_iff, ?_⟩
  intro r hr
  exact hlife.events_of_mem_periodic hr

end Tracker

namespace Session

variable (key : ConnectionKey)

/-- The process reads some bytes that say nothing of their protocol. -/
def trickling (count : Nat) : Transfer where
  key := key
  startTicks := 1
  direction := .ingress
  payload := .flat (List.replicate count 0x61)
  byteCount := count
  operation := .read
  ssl := false
  timestamp := ⟨400⟩

/-- A file leaves room for ten bytes below the largest word, and two calls fill it. -/
def brimming : List Step :=
  [ .observe (.sendfile { sending key with byteCount := maxWord - 10 }),
    .observe (.data (trickling key 1)),
    .observe (.data (trickling key 9)) ]

end Session

namespace Tracker

/-- What the two calls after the file have moved, together, is far less than the threshold. The
first of them is not reported, as the total is not at the largest word yet. The second one is. -/
theorem reports_past_ceiling_brimming :
    make .standard .everything = .ok standard ∧
      ∃ first second third,
        (standard.chronicle (Session.brimming ⟨7, 3⟩)).of 0 = [first, second, third] ∧
        Event.periodic second.events = [] ∧ Event.periodic third.events ≠ [] ∧
        ∀ r ∈ Event.periodic third.events, r.written = maxWord - 10 ∧ r.received = 10 := by
  have hamounts : ((standard.chronicle (Session.brimming ⟨7, 3⟩)).of 0).map Entry.amount =
      [maxWord - 10, 1, 9] := by decide +kernel
  have hcalls : ((standard.chronicle (Session.brimming ⟨7, 3⟩)).of 0).map (·.call?.isSome) =
      [true, true, true] := by decide +kernel
  have hunreported : Entry.unreported
      (((standard.chronicle (Session.brimming ⟨7, 3⟩)).of 0).take 1) = 0 := by decide +kernel
  have hmoved : Entry.moved .egress ((standard.chronicle (Session.brimming ⟨7, 3⟩)).of 0) =
        maxWord - 10 ∧
      Entry.moved .ingress ((standard.chronicle (Session.brimming ⟨7, 3⟩)).of 0) = 10 := by
    decide +kernel
  generalize hall : (standard.chronicle (Session.brimming ⟨7, 3⟩)).of 0 = all at *
  rcases all with _ | ⟨first, _ | ⟨second, _ | ⟨third, _ | ⟨fourth, more⟩⟩⟩⟩
  case cons.cons.cons.nil =>
    simp only [List.map_cons, List.map_nil, List.cons.injEq, and_true] at hamounts hcalls
    have hofSecond : (standard.chronicle (Session.brimming ⟨7, 3⟩)).of 0 =
        [first] ++ second :: [third] := hall
    have hofThird : (standard.chronicle (Session.brimming ⟨7, 3⟩)).of 0 =
        [first, second] ++ third :: [] := hall
    have htotal : Entry.total ([first, second] ++ [third]) = maxWord := by
      rw [Entry.total]
      exact (congrArg₂ (· + ·) hmoved.1 hmoved.2).trans (by decide)
    have hbelow : Entry.total ([first] ++ [second]) = maxWord - 9 := by
      have hsum := Entry.total_concat [first, second] third
      rw [htotal, hamounts.2.2] at hsum
      exact (Nat.sub_eq_of_eq_add hsum).symm
    have hsecond := (reports_past_ceiling make_standard (Session.brimming ⟨7, 3⟩) hofSecond).1
    have hthird := reports_past_ceiling make_standard (Session.brimming ⟨7, 3⟩) hofThird
    have hsince : Entry.unreported [first] + second.amount = 1 := by
      rw [hamounts.2.1]
      exact congrArg (· + 1) hunreported
    refine ⟨make_standard, first, second, third, rfl, ?_, ?_, ?_⟩
    · rw [hsince, hbelow] at hsecond
      by_contra hreported
      rcases (hsecond.1 hreported).2 with hreached | hfull
      · exact absurd hreached (by decide)
      · exact absurd hfull (by decide)
    · exact hthird.1.2 ⟨hcalls.2.2, Or.inr htotal.ge⟩
    · intro r hr
      rcases hthird.2 r hr with ⟨-, -, hwritten, hreceived⟩
      refine ⟨hwritten.trans ?_, hreceived.trans ?_⟩
      · exact (congrArg saturate hmoved.1).trans (by decide)
      · exact (congrArg saturate hmoved.2).trans (by decide)
  all_goals simp at hamounts

/-- Ten bytes after the report of the file there is another report, though no total was cut off. -/
theorem small_report :
    ∃ past e, (standard.chronicle (Session.brimming ⟨7, 3⟩)).of 0 = past ++ [e] ∧
      Entry.moved .egress (past ++ [e]) = maxWord - 10 ∧
      Entry.moved .ingress (past ++ [e]) = 10 ∧
      Entry.unreported past + e.amount = 10 ∧ Config.standard.statsThreshold = 65536 ∧
      Event.periodic e.events ≠ [] := by
  have hmoved : Entry.moved .egress ((standard.chronicle (Session.brimming ⟨7, 3⟩)).of 0) =
        maxWord - 10 ∧
      Entry.moved .ingress ((standard.chronicle (Session.brimming ⟨7, 3⟩)).of 0) = 10 := by
    decide +kernel
  have hbefore : Entry.unreported
      ((standard.chronicle (Session.brimming ⟨7, 3⟩)).of 0).dropLast = 1 := by decide +kernel
  have hlast : ((standard.chronicle (Session.brimming ⟨7, 3⟩)).of 0).getLast?.any
      (fun e => e.amount == 9 && !(Event.periodic e.events).isEmpty) = true := by decide +kernel
  rcases List.eq_nil_or_concat' ((standard.chronicle (Session.brimming ⟨7, 3⟩)).of 0) with
    hnil | ⟨past, e, hall⟩
  · simp [hnil] at hlast
  · rw [hall] at hmoved hbefore hlast
    simp only [List.getLast?_concat, Option.any_some, Bool.and_eq_true, beq_iff_eq] at hlast
    rw [List.dropLast_concat] at hbefore
    refine ⟨past, e, hall, hmoved.1, hmoved.2, ?_, rfl, ?_⟩
    · rw [hbefore, hlast.1]
    · simpa using hlast.2

end Tracker

end FlowTrace
