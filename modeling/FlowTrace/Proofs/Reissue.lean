import FlowTrace.Proofs.EventProtocol
import FlowTrace.Proofs.Occupancy

/-!
# Reissue — a connection under another generation

Of what the tracker knows of a connection, only the gate ever asks for the generation, and it asks
only if there are orders. So whatever befalls a connection without orders does the same to it under
another generation, `undergo_reissued`. If two trackers track the same connection of a key but for
its generation, and have room, a step of the key meets the same in both, `encounter?_reissued`.
-/

namespace FlowTrace

/-! ## Another generation -/

def ConnectionId.reissued (g : UInt64) (i : ConnectionId) : ConnectionId :=
  { i with generation := g }

def StatsReport.reissued (g : UInt64) (r : StatsReport) : StatsReport :=
  { r with id := r.id.reissued g }

def DataChunk.reissued (g : UInt64) (c : DataChunk) : DataChunk :=
  { c with id := c.id.reissued g }

/-- The same event, of another incarnation of the handle. -/
def Event.reissued (g : UInt64) : Event → Event
  | opened e => opened { e with id := e.id.reissued g }
  | closed e => closed { e with id := e.id.reissued g }
  | stats e => stats (e.reissued g)
  | data e => data (e.reissued g)

def Connection.reissued (g : UInt64) (c : Connection) : Connection :=
  { c with id := c.id.reissued g }

def Connection.Snapshot.reissued (g : UInt64) (s : Snapshot) : Snapshot :=
  { s with id := s.id.reissued g }

def Encounter.reissued (g : UInt64) (e : Encounter) : Encounter :=
  { e with connection := e.connection.reissued g }

@[simp] theorem Event.reissued_reissued (g g' : UInt64) (x : Event) :
    (x.reissued g).reissued g' = x.reissued g' := by
  cases x <;> rfl

namespace Connection

variable (g : UInt64) (c : Connection) (config : Config) (control : Control)

/-! ### What befalls a connection without orders -/

theorem classify_reissued (e : Classifier) (d : Direction) (sample : Bytes) :
    (c.reissued g).classify e d sample = (c.classify e d sample).reissued g := by
  have hinfer : e.infer sample (c.reissued g).carry (c.reissued g).protocol =
      e.infer sample c.carry c.protocol := rfl
  simp only [classify, hinfer]
  split <;> rfl

theorem sampled_reissued (o : Transfer) :
    (c.reissued g).sampled config o = (c.sampled config o).reissued g := by
  simp only [sampled]
  split
  · exact classify_reissued g { c with carry := c.carry.clearPrepend } _ _ _
  · rfl

theorem account_reissued (threshold : Nat) (m : Movement) :
    (c.reissued g).account threshold m =
      ((c.account threshold m).1.reissued g,
        (c.account threshold m).2.map (StatsReport.reissued g)) := by
  have hbytes : (c.reissued g).addBytes m.direction m.byteCount =
      (c.addBytes m.direction m.byteCount).reissued g := by
    cases m.direction <;> rfl
  -- The threshold is compared with the same totals.
  have htotal : ((c.addBytes m.direction m.byteCount).reissued g).total =
      (c.addBytes m.direction m.byteCount).total := rfl
  have hreported : ((c.addBytes m.direction m.byteCount).reissued g).reportedTotal =
      (c.addBytes m.direction m.byteCount).reportedTotal := rfl
  simp only [account, hbytes, htotal, hreported]
  split <;> rfl

theorem chunks_reissued (m : Movement) (position : Nat) (header : Option Header)
    (pieces : List Piece) :
    (c.reissued g).chunks m position header pieces =
      (c.chunks m position header pieces).map (DataChunk.reissued g) := by
  induction pieces generalizing position header with
  | nil => rfl
  | cons p ps ih => exact congrArg (_ :: ·) (ih (position + p.size) none)

theorem announcement_reissued (o : Opened) :
    (c.reissued g).announcement o = (c.announcement o).map (Event.reissued g) := by
  unfold announcement
  split <;> rfl

theorem events_finish_reissued (timestamp : Timestamp) :
    ((c.reissued g).finish timestamp).1 = (c.finish timestamp).1.map (Event.reissued g) := by
  have htotal : (c.reissued g).total = c.total := rfl
  have haddress : (c.reissued g).address = c.address := rfl
  simp only [finish, htotal, haddress]
  split <;> rfl

variable {c}

/-- The gate asks for the generation only if there are orders. -/
theorem sends_reissued (hfree : c.disabledUpTo = none) (force : Bool) :
    control.sends force (c.reissued g) = control.sends force c := by
  simp [Control.sends, isDisabled, reissued, hfree, ConnectionId.reissued]

theorem events_move_reissued (hfree : c.disabledUpTo = none) (force : Bool) (m : Movement) :
    ((c.reissued g).move config control force m).events =
      (c.move config control force m).events.map (Event.reissued g) := by
  have hchunks : ((c.reissued g).forward config.chunkLimits control force m).1 =
      (c.forward config.chunkLimits control force m).1.map (DataChunk.reissued g) := by
    by_cases hsends : control.sends force c = true
    · simp [forward, hsends, sends_reissued g control hfree, chunks_reissued]
      rfl
    · simp [forward, hsends, sends_reissued g control hfree]
  simp only [move, hchunks, account_reissued]
  cases (c.account config.statsThreshold m).2 <;> simp [Function.comp_def, Event.reissued]

theorem moving?_reissued (i : Incident) :
    (c.reissued g).moving? config i =
      (c.moving? config i).map fun p => (p.1.reissued g, p.2) := by
  cases i with
  | data o =>
    have htakes : (c.reissued g).takes o = c.takes o := rfl
    by_cases h : c.takes o = true
    · simp [moving?, htakes, h, sampled_reissued]
      rfl
    · simp [moving?, htakes, h]
  | sendfile o =>
    have htraceable : (c.reissued g).address.isTraceable = c.address.isTraceable := rfl
    by_cases h : c.address.isTraceable = true <;> simp [moving?, htraceable, h]
  | opened _ | tlsDetected | disabled _ | closed _ => rfl

/-- An incident makes the same of a connection, whatever its generation. -/
theorem undergo_reissued (hfree : c.disabledUpTo = none) (i : Incident) :
    ((c.reissued g).undergo config control i).connection =
        (c.undergo config control i).connection.reissued g ∧
      ((c.reissued g).undergo config control i).events =
        (c.undergo config control i).events.map (Event.reissued g) := by
  have hmoves := moving?_reissued (c := c) g config i
  cases hmoving : c.moving? config i with
  | some p =>
    rcases p with ⟨c', m⟩
    have hmoving' : (c.reissued g).moving? config i = some (c'.reissued g, m) := by
      simpa [hmoving] using hmoves
    have hfree' : c'.disabledUpTo = none := (moving?_frame hmoving).2.2.1.trans hfree
    rcases undergo_of_moving control hmoving with ⟨hconnection, hevents⟩
    rcases undergo_of_moving control hmoving' with ⟨hconnection', hevents'⟩
    rw [hconnection, hconnection', hevents, hevents', account_reissued]
    exact ⟨rfl, events_move_reissued g config control hfree' _ m⟩
  | none =>
    cases i with
    | data o =>
      have hother := not_takes_of_moving? hmoving
      have hquiet : (c.undergo config control (.data o)).connection = c ∧
          (c.undergo config control (.data o)).events = [] :=
        undergo_data_of_not_takes control hother
      have hquiet' : ((c.reissued g).undergo config control (.data o)).connection =
          c.reissued g ∧ ((c.reissued g).undergo config control (.data o)).events = [] :=
        undergo_data_of_not_takes control hother
      simp [hquiet, hquiet']
    | sendfile o =>
      have hother := not_traceable_of_moving? hmoving
      have hquiet : (c.undergo config control (.sendfile o)).connection = c ∧
          (c.undergo config control (.sendfile o)).events = [] :=
        undergo_sendfile_of_not_traceable control hother
      have hquiet' : ((c.reissued g).undergo config control (.sendfile o)).connection =
          c.reissued g ∧ ((c.reissued g).undergo config control (.sendfile o)).events = [] :=
        undergo_sendfile_of_not_traceable control hother
      simp [hquiet, hquiet']
    | opened o => exact ⟨rfl, announcement_reissued g c o⟩
    | tlsDetected => exact ⟨rfl, rfl⟩
    | disabled generation => exact ⟨rfl, rfl⟩
    | closed timestamp => exact ⟨rfl, events_finish_reissued g c timestamp⟩

end Connection

/-- What is left of a connection is the same but for its generation. -/
theorem Encounter.after?_reissued {e : Encounter} (hfree : e.connection.disabledUpTo = none)
    (config : Config) (control : Control) (g : UInt64) :
    (e.reissued g).after? config control =
      (e.after? config control).map (Connection.reissued g) := by
  have hreaction : ((e.reissued g).reaction config control).connection =
      (e.reaction config control).connection.reissued g :=
    (Connection.undergo_reissued g config control hfree e.incident).1
  have hincident : (e.reissued g).incident = e.incident := rfl
  cases hclosing : e.incident.isClosing <;> simp [after?, hincident, hclosing, hreaction]

/-! ## The same step on two trackers -/

namespace Tracker

variable {t u : Tracker} {key : ConnectionKey} {g : UInt64}

/-- What is sighted in both is the same but for its generation. -/
theorem sighting?_reissued
    (hfind : t.registry.find? key = (u.registry.find? key).map (Connection.reissued g))
    (hroom : t.registry.HasRoomFor key) (hroom' : u.registry.HasRoomFor key)
    (startTicks : UInt64) (i : Incident) :
    t.sighting? key startTicks i = (u.sighting? key startTicks i).map fun e =>
      e.reissued (if e.isNew then t.registry.nextGeneration else g) := by
  cases hu : u.registry.find? key with
  | some c =>
    have ht : t.registry.find? key = some (c.reissued g) := by simp [hfind, hu]
    simp [sighting?, ht, hu, Encounter.reissued]
  | none =>
    have ht : t.registry.find? key = none := by simp [hfind, hu]
    simp [sighting?, ht, hu, Registry.create?_of_lt (hroom ht), Registry.create?_of_lt (hroom' hu),
      Encounter.reissued]
    rfl

/-- An observation meets the same connection in both, but for its generation. -/
theorem encounter?_reissued (hcontrol : t.control = u.control) {s : Step} (hkey : s.key? = some key)
    (hfind : t.registry.find? key = (u.registry.find? key).map (Connection.reissued g))
    (hroom : t.registry.HasRoomFor key) (hroom' : u.registry.HasRoomFor key) :
    t.encounter? s = (u.encounter? s).map fun e =>
      e.reissued (if e.isNew then t.registry.nextGeneration else g) := by
  have hadmits : t.admits = u.admits := by
    funext pid
    simp only [admits, hcontrol]
  cases s with
  | observe o =>
    cases o with
    | opened o =>
      cases hkey
      simp only [encounter?, hadmits]
      by_cases hadmitted : u.admits o.key.pid = true
      · simp only [if_pos hadmitted]
        cases hu : u.registry.find? o.key with
        | some c =>
          have ht : t.registry.find? o.key = some (c.reissued g) := by simp [hfind, hu]
          cases hhint : o.hint <;> simp [ht] <;> rfl
        | none =>
          have ht : t.registry.find? o.key = none := by simp [hfind, hu]
          simp [ht, Registry.create?_of_lt (hroom ht), Registry.create?_of_lt (hroom' hu)]
          rfl
      · simp only [if_neg hadmitted, Option.map_none]
    | data o =>
      cases hkey
      simp only [encounter?, hadmits, sighting?_reissued hfind hroom hroom']
      split <;> rfl
    | sendfile o =>
      cases hkey
      simp only [encounter?, hadmits, sighting?_reissued hfind hroom hroom']
      split <;> rfl
    | closed o =>
      cases hkey
      simp only [encounter?, hadmits, hfind]
      by_cases hadmitted : u.admits o.key.pid = true <;>
        simp [hadmitted, Function.comp_def, Encounter.reissued]
    | tlsDetected o =>
      cases hkey
      simp only [encounter?, hadmits, sighting?_reissued hfind hroom hroom']
      split <;> rfl
    | cleanup ids => cases hkey
  | disable _ _ => cases hkey
  | look _ => cases hkey

end Tracker

end FlowTrace
