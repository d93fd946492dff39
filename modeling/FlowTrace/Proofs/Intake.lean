import FlowTrace.Proofs.Accounting

/-!
# Intake — the calls that an incarnation takes, and what its last report says of them

A call is taken if it moved bytes, its process is admitted, and there is a connection that takes it:
the tracked one, or a fresh one if there is room. How its payload was staged, how it is cut and
whether it passes the gate play no part in this.

The totals of an incarnation are the sums over the calls that it has taken so far, and its close
reports these sums, `totals_exact`.
-/

namespace FlowTrace

namespace Step

/-- The bytes that a step tells of in a direction. Files are always written. -/
def bytes (d : Direction) : Step → Nat
  | observe (.data o) => if o.direction = d then o.byteCount else 0
  | observe (.sendfile o) => if d = .egress then o.byteCount else 0
  | _ => 0

def totalBytes (d : Direction) : List Step → Nat
  | [] => 0
  | s :: steps => s.bytes d + totalBytes d steps

end Step

namespace Tracker

/-- The connection that a call is seen on: the tracked one, or a fresh one if there is room. -/
def seenOn? (t : Tracker) (key : ConnectionKey) (startTicks : UInt64) : Option Connection :=
  match t.registry.find? key with
  | some c => some c
  | none =>
    (t.registry.create? key startTicks .unknown .unknown).map Registry.Creation.connection

/-- Whether a step is a call whose bytes are accounted. -/
def takes (t : Tracker) : Step → Bool
  | .observe (.data o) =>
    o.byteCount != 0 && t.admits o.key.pid && (t.seenOn? o.key o.startTicks).any (·.takes o)
  | .observe (.sendfile o) =>
    o.byteCount != 0 && t.admits o.key.pid &&
      (t.seenOn? o.key o.startTicks).any (·.address.isTraceable)
  | _ => false

end Tracker

namespace Chronicle

/-- Whether a step is a call that an incarnation takes. -/
def takes (h : Chronicle) (n : Nat) (s : Step) : Bool :=
  h.tracker.takes s && s.key?.map (h.next s).number == some n

/-- The calls that an incarnation takes in a run from here on. -/
def taken (h : Chronicle) (n : Nat) : List Step → List Step
  | [] => []
  | s :: steps => (if h.takes n s then [s] else []) ++ (h.next s).taken n steps

end Chronicle

namespace Tracker

/-- The calls that an incarnation takes in a run. -/
def taken (t : Tracker) (steps : List Step) (n : Nat) : List Step :=
  (Chronicle.start t).taken n steps

/-- The bytes of a direction that the incarnation under a key has taken. -/
def accounted (t : Tracker) (steps : List Step) (key : ConnectionKey) (d : Direction) : Nat :=
  Step.totalBytes d (t.taken steps ((t.chronicle steps).number key))

end Tracker

/-! ## Calls and entries -/

/-- The call that an encounter takes. -/
def Encounter.call? (e : Encounter) : Option Step :=
  match e.incident with
  | .data o => if e.connection.takes o then some (.observe (.data o)) else none
  | .sendfile o =>
    if e.connection.address.isTraceable then some (.observe (.sendfile o)) else none
  | .opened _ | .tlsDetected | .disabled _ | .closed _ => none

namespace Tracker

variable {t : Tracker}

theorem map_connection_sighting? (key : ConnectionKey) (startTicks : UInt64) (i : Incident) :
    (t.sighting? key startTicks i).map Encounter.connection = t.seenOn? key startTicks := by
  unfold sighting? seenOn?
  cases t.registry.find? key with
  | some c => rfl
  | none => simp [Function.comp_def]

/-- A call that is let through is taken if the connection that it is seen on takes it. -/
theorem bind_call?_sighting {s : Step} {key : ConnectionKey} {startTicks : UInt64} {i : Incident}
    {accepts : Connection → Bool} (count : Nat)
    (hcall : ∀ e : Encounter, e.incident = i →
      e.call? = if accepts e.connection then some s else none) :
    ((if count ≠ 0 ∧ t.admits key.pid then t.sighting? key startTicks i else none).bind
        Encounter.call?) =
      if count != 0 && t.admits key.pid && (t.seenOn? key startTicks).any accepts then some s
      else none := by
  have hseen := map_connection_sighting? (t := t) key startTicks i
  by_cases hpassed : count ≠ 0 ∧ t.admits key.pid = true
  · have hpassed' : (count != 0 && t.admits key.pid) = true := by simpa using hpassed
    cases hsighting : t.sighting? key startTicks i with
    | none => simp [hpassed', ← hseen, hsighting]
    | some e =>
      have hincident : e.incident = i := incident_of_sighting? hsighting
      simp [hpassed, ← hseen, hsighting, hcall e hincident]
  · -- What is not let through is not even sighted.
    have hpassed' : (count != 0 && t.admits key.pid) = false := by simpa using hpassed
    simp [hpassed, hpassed']

/-- The call of an encounter is the step itself, if the step is a call that is taken. -/
theorem bind_call?_encounter (s : Step) :
    (t.encounter? s).bind Encounter.call? = if t.takes s then some s else none := by
  -- Other steps let nothing befall a connection that would be a call.
  have hother : (∀ i, s.incident? = some i → ∀ e : Encounter, e.incident = i → e.call? = none) →
      (t.encounter? s).bind Encounter.call? = none := by
    intro hnone
    cases hencounter : t.encounter? s with
    | none => rfl
    | some e => exact hnone _ (incident_of_encounter? hencounter) e rfl
  cases s with
  | observe o =>
    cases o with
    | data o => exact bind_call?_sighting o.byteCount fun e he => by simp [Encounter.call?, he]
    | sendfile o => exact bind_call?_sighting o.byteCount fun e he => by simp [Encounter.call?, he]
    | opened o => exact hother (by rintro _ ⟨⟩ e he; simp [Encounter.call?, he])
    | closed o => exact hother (by rintro _ ⟨⟩ e he; simp [Encounter.call?, he])
    | tlsDetected o => exact hother (by rintro _ ⟨⟩ e he; simp [Encounter.call?, he])
    | cleanup ids => rfl
  | disable key generation => exact hother (by rintro _ ⟨⟩ e he; simp [Encounter.call?, he])
  | look key => rfl

end Tracker

namespace Chronicle

variable {h : Chronicle}

/-- Every call is of some key. -/
theorem exists_key_of_takes {t : Tracker} {s : Step} (htakes : t.takes s = true) :
    ∃ key, s.key? = some key := by
  cases s with
  | observe o => cases o <;> first | exact ⟨_, rfl⟩ | cases htakes
  | _ => cases htakes

/-- A step adds to the entries of an incarnation the call that the incarnation takes. -/
theorem Valid.filterMap_call?_next (hv : h.Valid) (n : Nat) (s : Step) :
    ((h.next s).of n).filterMap (·.call?) =
      (h.of n).filterMap (·.call?) ++ if h.takes n s then [s] else [] := by
  have hcall := Tracker.bind_call?_encounter (t := h.tracker) s
  cases hencounter : h.tracker.encounter? s with
  | none =>
    have hno : h.tracker.takes s = false := by simpa [hencounter] using hcall
    simp [next_of_none hencounter, of, takes, hno]
  | some e =>
    have hcall' : e.call? = if h.tracker.takes s then some s else none := by
      simpa [hencounter] using hcall
    have hcall' : (h.entry s e).call? = if h.tracker.takes s then some s else none := hcall'
    rw [of_next hencounter, List.filterMap_append]
    cases htakes : h.tracker.takes s with
    | false =>
      by_cases hn : (h.entry s e).number = n <;> simp [takes, htakes, hn, hcall']
    | true =>
      -- The call is of the key that it is met under, and so of the number of the entry.
      rcases exists_key_of_takes htakes with ⟨key, hkey⟩
      have hsame : e.key = key := Tracker.key_of_encounter? hv.keyed hencounter hkey
      have hnumber : (h.next s).number key = (h.entry s e).number := by
        simp [next_of_encounter hencounter, hsame]
      by_cases hn : (h.entry s e).number = n <;> simp [takes, htakes, hkey, hnumber, hn, hcall']

/-- The calls that an incarnation has taken in a run are those of its entries. -/
theorem Valid.filterMap_call? (hv : h.Valid) (n : Nat) (steps : List Step) :
    ((steps.foldl Chronicle.next h).of n).filterMap (·.call?) =
      (h.of n).filterMap (·.call?) ++ h.taken n steps := by
  induction steps generalizing h with
  | nil => simp [taken]
  | cons s steps ih =>
    calc
      ((steps.foldl Chronicle.next (h.next s)).of n).filterMap (·.call?)
          = ((h.next s).of n).filterMap (·.call?) ++ (h.next s).taken n steps := ih (hv.next s)
      _ = (h.of n).filterMap (·.call?) ++ h.taken n (s :: steps) := by
          simp [hv.filterMap_call?_next, taken]

end Chronicle

/-! ## Totals -/

namespace Step

variable (d : Direction)

@[simp] theorem totalBytes_append (first rest : List Step) :
    totalBytes d (first ++ rest) = totalBytes d first + totalBytes d rest := by
  induction first with
  | nil => simp [totalBytes]
  | cons s first ih => simp [totalBytes, ih, Nat.add_assoc]

end Step

/-- What an entry adds to a direction are the bytes of its call. -/
theorem Encounter.totalBytes_call? (d : Direction) (e : Encounter) :
    Step.totalBytes d e.call?.toList = e.connection.adds d e.incident := by
  cases hincident : e.incident with
  | data o =>
    by_cases htakes : e.connection.takes o = true <;>
      simp [call?, hincident, htakes, Connection.adds, Step.totalBytes, Step.bytes]
  | sendfile o =>
    by_cases htraceable : e.connection.address.isTraceable = true <;>
      simp [call?, hincident, htraceable, Connection.adds, Step.totalBytes, Step.bytes]
  | opened _ | tlsDetected | disabled _ | closed _ =>
    simp [call?, hincident, Connection.adds, Step.totalBytes]

theorem Entry.totalBytes_filterMap_call? (d : Direction) (es : List Entry) :
    Step.totalBytes d (es.filterMap (·.call?)) = moved d es := by
  induction es with
  | nil => rfl
  | cons e es ih =>
    have hcall : Step.totalBytes d e.call?.toList = e.adds d := e.totalBytes_call? d
    have hsplit : (e :: es).filterMap (·.call?) = e.call?.toList ++ es.filterMap (·.call?) := by
      cases hnone : e.call? <;> simp [hnone]
    simp [hsplit, hcall, ih, moved]

/-- Nothing is ever taken of a connection whose address is of another family. -/
theorem Life.untraceable_invariant {config : Config} {control : Control} (d : Direction) :
    Life.Invariant config control fun _ c =>
      c.address.isTraceable = false → c.position d = 0 := by
  constructor
  · intro id address role _
    cases d <;> rfl
  · intro past e hafter hclosing hpast huntraceable
    have haddress : e.connection.address.isTraceable = false := by
      simpa [Encounter.reaction] using huntraceable
    have hzero : e.connection.position d = 0 := hpast haddress
    have hadds : e.connection.adds d e.incident = 0 := by
      cases e.incident <;> simp [Connection.adds, Connection.takes, haddress]
    have hword : e.connection.position d ≤ maxWord := by simp [hzero]
    calc
      (e.reaction config control).connection.position d
          = saturate (e.connection.position d + e.connection.adds d e.incident) :=
        Connection.position_undergo d control hword e.incident
      _ = 0 := by simp [hzero, hadds, saturate]

namespace Connection

/-- The last events of a connection, in terms of its totals. -/
theorem finish_fst (c : Connection) (timestamp : Timestamp)
    (hsilent : c.address.isTraceable = false → c.written = 0 ∧ c.received = 0) :
    (c.finish timestamp).1 =
      if c.address.isTraceable then
        [ .closed
            { timestamp, id := c.id, operation := .close, written := c.written,
              received := c.received },
          .stats
            { timestamp, id := c.id, address := c.address, role := c.role, written := c.written,
              received := c.received, isFirst := !c.isReported, isClose := true } ]
      else [] := by
  cases htraceable : c.address.isTraceable with
  | true => simp [finish, htraceable, report]
  | false =>
    -- It never moved a byte, so it leaves silently.
    rcases hsilent htraceable with ⟨hwritten, hreceived⟩
    simp [finish, htraceable, total, hwritten, hreceived, saturate]

end Connection

namespace Tracker

variable {config : Config} {control : Control} {t : Tracker}

theorem events_respond_closed {o : Closed} {c : Connection}
    (hfound : t.registry.find? o.key = some c) :
    (t.respond (.observe (.closed o))).events =
      if t.admits o.key.pid then (c.finish o.timestamp).1 else [] := by
  show (t.closed o).events = _
  by_cases hadmits : t.admits o.key.pid = true
  · simp [closed, admitting_of_admits hadmits, hfound, hadmits]
  · have hnone : (t.closed o).events = [] :=
      (answers_admitting_of_not_admits hadmits _).events_eq
    simp [hnone, hadmits]

/-- A tracked connection is what the entries of its incarnation have left of it. -/
theorem life_of_find? (h : make config control = .ok t) {steps : List Step} {key : ConnectionKey}
    {c : Connection} (hfound : (t.run steps).registry.find? key = some c) :
    Life config control ((t.chronicle steps).of ((t.chronicle steps).number key)) (some c) := by
  have hlife := (valid_chronicle h steps).live key c (by simpa using hfound)
  simpa [(make_eq_ok h).1] using hlife

/-- The calls that an incarnation takes are those of its entries. -/
theorem taken_eq (h : make config control = .ok t) (steps : List Step) (n : Nat) :
    t.taken steps n = ((t.chronicle steps).of n).filterMap (·.call?) := by
  have hcalls := (Chronicle.valid_start h).filterMap_call? n steps
  -- There were no entries to begin with.
  simpa [taken, chronicle, Chronicle.of, Chronicle.start] using hcalls.symm

/-- At every moment of a run the totals of a tracked connection are the sums over the calls that its
incarnation has taken, cut off at the largest word, and its close reports these sums. -/
theorem totals_exact (h : make config control = .ok t) (steps : List Step) {key : ConnectionKey}
    {c : Connection} (hfound : (t.run steps).registry.find? key = some c) :
    c.written = saturate (t.accounted steps key .egress) ∧
      c.received = saturate (t.accounted steps key .ingress) ∧
      ∀ timestamp, ((t.run steps).respond (.observe (.closed { key, timestamp }))).events =
        if t.admits key.pid ∧ c.address.isTraceable then
          [ .closed
              { timestamp
                id := c.id
                operation := .close
                written := saturate (t.accounted steps key .egress)
                received := saturate (t.accounted steps key .ingress) },
            .stats
              { timestamp
                id := c.id
                address := c.address
                role := c.role
                written := saturate (t.accounted steps key .egress)
                received := saturate (t.accounted steps key .ingress)
                isFirst := !c.isReported
                isClose := true } ]
        else [] := by
  have hlife := life_of_find? h hfound
  have htotal : ∀ d, c.position d = saturate (t.accounted steps key d) := by
    intro d
    have hposition := (Life.position_invariant d).of_live hlife
    simpa [accounted, taken_eq h, Entry.totalBytes_filterMap_call?] using hposition
  have hwritten : c.written = saturate (t.accounted steps key .egress) := htotal .egress
  have hreceived : c.received = saturate (t.accounted steps key .ingress) := htotal .ingress
  refine ⟨hwritten, hreceived, ?_⟩
  intro timestamp
  have hsilent : c.address.isTraceable = false → c.written = 0 ∧ c.received = 0 := fun hno =>
    ⟨(Life.untraceable_invariant .egress).of_live hlife hno,
      (Life.untraceable_invariant .ingress).of_live hlife hno⟩
  have hadmits : (t.run steps).admits key.pid = t.admits key.pid := by simp [admits]
  have hclose := events_respond_closed (o := { key, timestamp }) hfound
  rw [hclose, c.finish_fst timestamp hsilent, hadmits, ← hwritten, ← hreceived]
  by_cases hadmitted : t.admits key.pid = true <;> simp [hadmitted]

/-- After the client has sent its request and the file, 70018 bytes are accounted as written and
none as read, and a close would report this. -/
theorem totals_exact_upload :
    make .standard .everything = .ok standard ∧
      ∃ c, (standard.run ((Session.upload ⟨7, 3⟩).take 3)).registry.find? ⟨7, 3⟩ = some c ∧
        c.written = 70018 ∧ c.received = 0 ∧
        ∃ closing last,
          ((standard.run ((Session.upload ⟨7, 3⟩).take 3)).respond (Session.close ⟨7, 3⟩)).events =
              [.closed closing, .stats last] ∧
            closing.written = 70018 ∧ last.written = 70018 ∧ last.received = 0 := by
  have htracked : ((standard.run ((Session.upload ⟨7, 3⟩).take 3)).registry.find? ⟨7, 3⟩).map
      (·.address.isTraceable) = some true := by decide +kernel
  have hegress : standard.accounted ((Session.upload ⟨7, 3⟩).take 3) ⟨7, 3⟩ .egress = 70018 := by
    decide +kernel
  have hingress : standard.accounted ((Session.upload ⟨7, 3⟩).take 3) ⟨7, 3⟩ .ingress = 0 := by
    decide +kernel
  have hadmits : standard.admits 7 = true := rfl
  rcases Option.map_eq_some_iff.1 htracked with ⟨c, hfound, htraceable⟩
  rcases totals_exact make_standard _ hfound with ⟨hwritten, hreceived, hclose⟩
  have hclose := hclose ⟨400⟩
  simp only [hegress, hingress, hadmits, htraceable, and_self, if_true] at hwritten hreceived hclose
  exact ⟨make_standard, c, hfound, hwritten, hreceived, _, _, hclose, rfl, rfl, rfl⟩

end Tracker

end FlowTrace
