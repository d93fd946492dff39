import FlowTrace.Proofs.Registry
import FlowTrace.Tracker

/-!
# Encounter — what a step makes of one connection

A step concerns at most one incarnation: it begins one, lets one react, or ends one. The encounter
of a step is that incarnation, as the step meets it, and the incident that befalls it. The main
result `answers_respond` says all that a step does in these terms: its events are those of the
incident, its key is left with what the incident leaves, and every other key keeps its connection or
loses it.
-/

namespace FlowTrace

/-- What may befall a connection. -/
inductive Incident
  | opened (o : Opened)
  | data (o : Transfer)
  | sendfile (o : FileTransfer)
  | tlsDetected
  | disabled (generation : UInt64)
  | closed (timestamp : Timestamp)
  deriving DecidableEq, Repr

namespace Incident

def isOpening : Incident → Bool
  | opened _ => true
  | _ => false

def isClosing : Incident → Bool
  | closed _ => true
  | _ => false

/-- A call that moved no bytes. -/
def isEmpty : Incident → Bool
  | data o => o.byteCount == 0
  | sendfile o => o.byteCount == 0
  | _ => false

theorem exists_of_isOpening {i : Incident} (h : i.isOpening = true) : ∃ o, i = opened o := by
  cases i with
  | opened o => exact ⟨o, rfl⟩
  | _ => cases h

theorem exists_of_isClosing {i : Incident} (h : i.isClosing = true) :
    ∃ timestamp, i = closed timestamp := by
  cases i with
  | closed timestamp => exact ⟨timestamp, rfl⟩
  | _ => cases h

end Incident

/-- Whether the data of a process is forwarded whatever the masks say. -/
def Control.forces (control : Control) (pid : UInt32) : Bool :=
  control.target.force? pid == some true

theorem Control.forces_of_force? {control : Control} {pid : UInt32} {force : Bool}
    (h : control.target.force? pid = some force) : control.forces pid = force := by
  cases force <;> simp [forces, h]

namespace Connection

/-- The announcement of a connection that was just started. -/
def announcement (c : Connection) (o : Opened) : List Event :=
  if o.address.isTraceable then
    [ .opened
        { timestamp := o.timestamp
          id := c.id
          operation := o.operation
          address := o.address
          role := Role.ofHint o.hint } ]
  else []

/-- What an incident makes of a connection. -/
def undergo (c : Connection) (config : Config) (control : Control) : Incident → Reaction
  | .opened o => ⟨c, c.announcement o, {}⟩
  | .data o => c.transfer config control (control.forces c.id.key.pid) o
  | .sendfile o => c.transferFile config control (control.forces c.id.key.pid) o
  | .tlsDetected => ⟨{ c with ssl := true }, [], {}⟩
  | .disabled generation => ⟨c.disableUpTo generation, [], {}⟩
  | .closed timestamp => ⟨c, (c.finish timestamp).1, (c.finish timestamp).2⟩

end Connection

structure Encounter where
  /-- The connection, as the step meets it. -/
  connection : Connection
  /-- The incarnation begins with this step. -/
  isNew : Bool
  incident : Incident
  deriving DecidableEq, Repr

namespace Encounter

variable (config : Config) (control : Control) (e : Encounter)

def key : ConnectionKey :=
  e.connection.id.key

def reaction : Reaction :=
  e.connection.undergo config control e.incident

/-- The connection after the step, unless it was closed. -/
def after? : Option Connection :=
  if e.incident.isClosing then none else some (e.reaction config control).connection

variable {config control e} in
theorem after?_of_not_closing (h : e.incident.isClosing = false) :
    e.after? config control = some (e.reaction config control).connection := by
  simp [after?, h]

variable {config control e} in
theorem after?_of_closing (h : e.incident.isClosing = true) : e.after? config control = none := by
  simp [after?, h]

variable {config control e} in
theorem of_after? {c : Connection} (h : e.after? config control = some c) :
    e.incident.isClosing = false ∧ c = (e.reaction config control).connection := by
  cases hclosing : e.incident.isClosing with
  | true => simp [after?_of_closing hclosing] at h
  | false =>
    have hafter : e.after? config control = some (e.reaction config control).connection :=
      after?_of_not_closing hclosing
    exact ⟨rfl, Option.some.inj (h.symm.trans hafter)⟩

/-- An incarnation begins with nothing known of it but what an opening tells. -/
def IsBirth : Prop :=
  match e.incident with
  | .opened o => e.connection = Connection.start e.connection.id o.address (Role.ofHint o.hint)
  | .data _ | .sendfile _ | .tlsDetected =>
    e.connection = Connection.start e.connection.id .unknown .unknown
  | .disabled _ | .closed _ => False

variable {e} in
theorem IsBirth.exists_start (h : e.IsBirth) :
    ∃ address role, e.connection = Connection.start e.connection.id address role := by
  unfold IsBirth at h
  split at h
  · exact ⟨_, _, h⟩
  · exact ⟨_, _, h⟩
  · exact ⟨_, _, h⟩
  · exact ⟨_, _, h⟩
  · exact h.elim
  · exact h.elim

end Encounter

/-! ## The encounter of a step -/

def Observation.key? : Observation → Option ConnectionKey
  | opened o => some o.key
  | data o => some o.key
  | sendfile o => some o.key
  | closed o => some o.key
  | tlsDetected o => some o.key
  | cleanup _ => none

namespace Step

/-- The key that a step observes something of. -/
def key? : Step → Option ConnectionKey
  | observe o => o.key?
  | disable _ _ | look _ => none

/-- What a step lets befall a connection, if it meets one. -/
def incident? : Step → Option Incident
  | observe (.opened o) => some (.opened o)
  | observe (.data o) => some (.data o)
  | observe (.sendfile o) => some (.sendfile o)
  | observe (.closed o) => some (.closed o.timestamp)
  | observe (.tlsDetected _) => some .tlsDetected
  | observe (.cleanup _) => none
  | disable _ generation => some (.disabled generation)
  | look _ => none

end Step

namespace Tracker

def admits (t : Tracker) (pid : UInt32) : Bool :=
  (t.control.target.force? pid).isSome

/-- A connection that is met by its traffic, which begins it if its key is not tracked. -/
def sighting? (t : Tracker) (key : ConnectionKey) (startTicks : UInt64) (i : Incident) :
    Option Encounter :=
  match t.registry.find? key with
  | some c => some ⟨c, false, i⟩
  | none =>
    (t.registry.create? key startTicks .unknown .unknown).map fun creation =>
      ⟨creation.connection, true, i⟩

/-- The connection that a step concerns. There is none if the observation is of another process,
moved no bytes, is refused for want of room, names a key that is not tracked, or sights a tracked one. -/
def encounter? (t : Tracker) : Step → Option Encounter
  | .observe (.opened o) =>
    if t.admits o.key.pid then
      match t.registry.find? o.key, o.hint with
      | some _, .implicit => none
      | some _, _ =>
        some ⟨(t.registry.install o.key o.startTicks o.address (Role.ofHint o.hint)).2, true,
          .opened o⟩
      | none, _ =>
        (t.registry.create? o.key o.startTicks o.address (Role.ofHint o.hint)).map fun creation =>
          ⟨creation.connection, true, .opened o⟩
    else none
  | .observe (.data o) =>
    if o.byteCount ≠ 0 ∧ t.admits o.key.pid then t.sighting? o.key o.startTicks (.data o) else none
  | .observe (.sendfile o) =>
    if o.byteCount ≠ 0 ∧ t.admits o.key.pid then t.sighting? o.key o.startTicks (.sendfile o)
    else none
  | .observe (.closed o) =>
    if t.admits o.key.pid then
      (t.registry.find? o.key).map fun c => ⟨c, false, .closed o.timestamp⟩
    else none
  | .observe (.tlsDetected o) =>
    if t.admits o.key.pid then t.sighting? o.key o.startTicks .tlsDetected else none
  | .observe (.cleanup _) => none
  | .disable key generation => (t.registry.find? key).map fun c => ⟨c, false, .disabled generation⟩
  | .look _ => none

theorem incident_of_sighting? {t : Tracker} {key : ConnectionKey} {startTicks : UInt64}
    {i : Incident} {e : Encounter} (h : t.sighting? key startTicks i = some e) : e.incident = i := by
  unfold sighting? at h
  split at h
  · cases h
    rfl
  · rcases Option.map_eq_some_iff.1 h with ⟨creation, _, rfl⟩
    rfl

/-- What befalls a connection is told by the step alone. -/
theorem incident_of_encounter? {t : Tracker} {s : Step} {e : Encounter}
    (h : t.encounter? s = some e) : s.incident? = some e.incident := by
  unfold encounter? at h
  split at h
  · split at h
    · split at h
      · cases h
      · cases h
        rfl
      · rcases Option.map_eq_some_iff.1 h with ⟨creation, _, rfl⟩
        rfl
    · cases h
  · rcases Option.ite_none_right_eq_some.1 h with ⟨_, hsighting⟩
    simp [Step.incident?, incident_of_sighting? hsighting]
  · rcases Option.ite_none_right_eq_some.1 h with ⟨_, hsighting⟩
    simp [Step.incident?, incident_of_sighting? hsighting]
  · rcases Option.ite_none_right_eq_some.1 h with ⟨_, hfound⟩
    rcases Option.map_eq_some_iff.1 hfound with ⟨c, _, rfl⟩
    rfl
  · rcases Option.ite_none_right_eq_some.1 h with ⟨_, hsighting⟩
    simp [Step.incident?, incident_of_sighting? hsighting]
  · cases h
  · rcases Option.map_eq_some_iff.1 h with ⟨c, _, rfl⟩
    rfl
  · cases h

/-- An observation is no order. -/
theorem not_order {t : Tracker} {s : Step} {e : Encounter} (h : t.encounter? s = some e)
    {key : ConnectionKey} (hkey : s.key? = some key) (generation : UInt64) : e.incident ≠ .disabled generation := by
  intro hdisabled
  have hincident := incident_of_encounter? h
  cases s with
  | observe o => cases o <;> simp [Step.incident?, hdisabled] at hincident
  | disable _ _ | look _ => cases hkey

/-- Calls that moved no bytes meet nothing. -/
theorem isEmpty_of_encounter? {t : Tracker} {s : Step} {e : Encounter}
    (h : t.encounter? s = some e) : e.incident.isEmpty = false := by
  unfold encounter? at h
  split at h
  · -- An opening moves nothing by nature.
    split at h
    · split at h
      · cases h
      · cases h
        rfl
      · rcases Option.map_eq_some_iff.1 h with ⟨creation, _, rfl⟩
        rfl
    · cases h
  · split at h
    · next hmoved =>
      rw [incident_of_sighting? h]
      simpa [Incident.isEmpty] using hmoved.1
    · cases h
  · split at h
    · next hmoved =>
      rw [incident_of_sighting? h]
      simpa [Incident.isEmpty] using hmoved.1
    · cases h
  · split at h
    · rcases Option.map_eq_some_iff.1 h with ⟨c, _, rfl⟩
      rfl
    · cases h
  · split at h
    · rw [incident_of_sighting? h]
      rfl
    · cases h
  · cases h
  · rcases Option.map_eq_some_iff.1 h with ⟨c, _, rfl⟩
    rfl
  · cases h

theorem key_of_create? {r : Registry} {key : ConnectionKey} {startTicks : UInt64}
    {address : RemoteAddress} {role : Role} {creation : Registry.Creation}
    (h : r.create? key startTicks address role = some creation) :
    creation.connection.id.key = key := by
  rcases Registry.create?_eq_some h with ⟨r', _, _, hinstall⟩
  simp [(Prod.mk.inj hinstall).2, Connection.start]

theorem key_of_sighting? {t : Tracker} (hkeyed : t.registry.IsKeyed) {key : ConnectionKey}
    {startTicks : UInt64} {i : Incident} {e : Encounter}
    (h : t.sighting? key startTicks i = some e) : e.key = key := by
  unfold sighting? at h
  split at h
  · next c hfound =>
    cases h
    exact hkeyed key c hfound
  · rcases Option.map_eq_some_iff.1 h with ⟨creation, hcreate, rfl⟩
    exact key_of_create? hcreate

/-- An observation meets a connection under its own key. -/
theorem key_of_encounter? {t : Tracker} (hkeyed : t.registry.IsKeyed) {s : Step} {e : Encounter}
    (h : t.encounter? s = some e) {key : ConnectionKey} (hkey : s.key? = some key) :
    e.key = key := by
  unfold encounter? at h
  split at h
  · cases hkey
    split at h
    · split at h
      · cases h
      · cases h
        rfl
      · rcases Option.map_eq_some_iff.1 h with ⟨creation, hcreate, rfl⟩
        exact key_of_create? hcreate
    · cases h
  · cases hkey
    exact key_of_sighting? hkeyed (Option.ite_none_right_eq_some.1 h).2
  · cases hkey
    exact key_of_sighting? hkeyed (Option.ite_none_right_eq_some.1 h).2
  · cases hkey
    rcases Option.map_eq_some_iff.1 (Option.ite_none_right_eq_some.1 h).2 with ⟨c, hfound, rfl⟩
    exact hkeyed _ c hfound
  · cases hkey
    exact key_of_sighting? hkeyed (Option.ite_none_right_eq_some.1 h).2
  · cases h
  · cases hkey
  · cases h

/-- The answer to a step that meets a connection. -/
structure Meets (t : Tracker) (e : Encounter) (out : Outcome) : Prop where
  events_eq : out.events = (e.reaction t.config t.control).events
  find?_key : out.registry.find? e.key = e.after? t.config t.control
  find?_of_ne : ∀ key c, key ≠ e.key → out.registry.find? key = some c →
    t.registry.find? key = some c
  birth : e.isNew = true → e.IsBirth ∧ e.connection.id.generation = t.registry.nextGeneration ∧
    out.registry.nextGeneration = t.registry.nextGeneration + 1
  found : e.isNew = false → e.incident.isOpening = false ∧
    t.registry.find? e.key = some e.connection ∧
    out.registry.nextGeneration = t.registry.nextGeneration

/-- The answer to a step that meets none: connections may only leave. -/
structure Passes (t : Tracker) (out : Outcome) : Prop where
  events_eq : out.events = []
  within : Registry.Within out.registry t.registry
  nextGeneration_eq : out.registry.nextGeneration = t.registry.nextGeneration

/-- The answer to a step that meets what `e?` says. -/
def Answers (t : Tracker) (e? : Option Encounter) (out : Outcome) : Prop :=
  match e? with
  | some e => t.Meets e out
  | none => t.Passes out

namespace Answers

variable {t : Tracker} {e? : Option Encounter} {out : Outcome}

/-- Only the events and the registry of an answer matter. -/
theorem congr {out' : Outcome} (h : t.Answers e? out) (hregistry : out'.registry = out.registry)
    (hevents : out'.events = out.events) : t.Answers e? out' := by
  cases e? with
  | none =>
    rcases h with ⟨hnone, hwithin, hnext⟩
    exact ⟨hevents.trans hnone, hregistry ▸ hwithin, hregistry ▸ hnext⟩
  | some e =>
    rcases h with ⟨heq, hkey, hne, hbirth, hfound⟩
    exact ⟨hevents.trans heq, hregistry ▸ hkey, hregistry ▸ hne, hregistry ▸ hbirth,
      hregistry ▸ hfound⟩

/-- A step that changes no entry and reports nothing. -/
theorem idle (hregistry : out.registry = t.registry) (hevents : out.events = []) :
    t.Answers none out :=
  ⟨hevents, hregistry ▸ Registry.Within.refl _, hregistry ▸ rfl⟩

/-- An incarnation that begins in a registry `r'` that tracks no more than that of the tracker. -/
theorem begins {r' : Registry} {key : ConnectionKey} {startTicks : UInt64}
    {address : RemoteAddress} {role : Role} {i : Incident}
    (hwithin : r'.Within t.registry) (hnext : r'.nextGeneration = t.registry.nextGeneration)
    (hbirth : (Encounter.mk (r'.install key startTicks address role).2 true i).IsBirth)
    (hclosing : i.isClosing = false)
    (hevents : out.events =
      ((r'.install key startTicks address role).2.undergo t.config t.control i).events)
    (hkey : out.registry.find? key =
      some ((r'.install key startTicks address role).2.undergo t.config t.control i).connection)
    (hne : ∀ other, other ≠ key →
      out.registry.find? other = (r'.install key startTicks address role).1.find? other)
    (hgeneration : out.registry.nextGeneration = r'.nextGeneration + 1) :
    t.Answers (some ⟨(r'.install key startTicks address role).2, true, i⟩) out := by
  refine ⟨hevents, ?_, ?_, ?_, ?_⟩
  · simp only [Encounter.after?, hclosing, Bool.false_eq_true, if_false]
    exact hkey
  · -- Installing touches its own key alone, and the registry tracked no more than the tracker.
    intro other c hother hfound
    have hother : other ≠ key := hother
    rw [hne other hother, Registry.find?_install_of_ne _ _ _ _ _ hother] at hfound
    exact hwithin other c hfound
  · intro _
    exact ⟨hbirth, hnext, hgeneration.trans (congrArg (· + 1) hnext)⟩
  · intro hold
    cases hold

/-- A tracked connection that is left as the incident leaves it. -/
theorem revises {key : ConnectionKey} {c : Connection} {i : Incident}
    (hfind : t.registry.find? key = some c) (hckey : c.id.key = key)
    (hopening : i.isOpening = false) (hclosing : i.isClosing = false)
    (hevents : out.events = (c.undergo t.config t.control i).events)
    (hregistry : out.registry =
      t.registry.put key (c.undergo t.config t.control i).connection) :
    t.Answers (some ⟨c, false, i⟩) out := by
  subst hckey
  refine ⟨hevents, ?_, ?_, ?_, ?_⟩
  · simp only [Encounter.after?, hclosing, Bool.false_eq_true, if_false, hregistry]
    exact Registry.find?_put_self _ _ _
  · intro other d hother hfound
    have hother : other ≠ c.id.key := hother
    rwa [hregistry, Registry.find?_put_of_ne hother] at hfound
  · intro hnew
    cases hnew
  · intro _
    exact ⟨hopening, hfind, hregistry ▸ rfl⟩

end Answers

/-! ## Admission -/

theorem admitting_of_admits {t : Tracker} {pid : UInt32} (h : t.admits pid = true)
    (go : Bool → Outcome) : t.admitting pid go = go (t.control.forces pid) := by
  rcases Option.isSome_iff_exists.1 h with ⟨force, hforce⟩
  simp [admitting, hforce, Control.forces_of_force? hforce]

/-- An observation of another process is counted, and that is all. -/
theorem admitting_of_not_admits {t : Tracker} {pid : UInt32} (h : ¬t.admits pid = true)
    (go : Bool → Outcome) :
    t.admitting pid go = { registry := t.registry, tally := { unmatchedTarget := 1 } } := by
  have hnone : t.control.target.force? pid = none := by
    simpa [admits] using h
  simp [admitting, hnone]

theorem answers_admitting_of_not_admits {t : Tracker} {pid : UInt32} (h : ¬t.admits pid = true)
    (go : Bool → Outcome) : t.Answers none (t.admitting pid go) := by
  rw [admitting_of_not_admits h]
  exact Answers.idle rfl rfl

/-! ## Creation and traffic -/

/-- A connection is created if there is room, and then it is the encounter. -/
theorem answers_creating {t : Tracker} {key : ConnectionKey} {startTicks : UInt64}
    {address : RemoteAddress} {role : Role} {i : Incident} {go : Registry → Connection → Outcome}
    (hbirth : ∀ c, c = Connection.start c.id address role → (Encounter.mk c true i).IsBirth)
    (hclosing : i.isClosing = false)
    (hevents : ∀ r c, c.id.key = key →
      (go r c).events = (c.undergo t.config t.control i).events)
    (hkey : ∀ r c, c.id.key = key → r.find? key = some c →
      (go r c).registry.find? key = some (c.undergo t.config t.control i).connection)
    (hne : ∀ r c other, other ≠ key → (go r c).registry.find? other = r.find? other)
    (hnext : ∀ r c, (go r c).registry.nextGeneration = r.nextGeneration) :
    t.Answers ((t.registry.create? key startTicks address role).map fun creation =>
      ⟨creation.connection, true, i⟩) (t.creating key startTicks address role go) := by
  cases hcreate : t.registry.create? key startTicks address role with
  | none =>
    -- Without room nothing changes but the tally.
    exact Answers.idle (by simp [creating, hcreate]) (by simp [creating, hcreate])
  | some creation =>
    rcases Registry.create?_eq_some hcreate with ⟨r', hwithin, hgeneration, hinstall⟩
    rcases Prod.mk.inj hinstall with ⟨hr, hc⟩
    simp only [creating, hcreate, Option.map_some, hc, hr]
    refine Answers.begins hwithin hgeneration (hbirth _ rfl) hclosing (hevents _ _ rfl) ?_ ?_ ?_
    · exact hkey _ _ rfl (Registry.find?_install_self _ _ _ _ _)
    · intro other hother
      exact hne _ _ other hother
    · exact (hnext _ _).trans (Registry.nextGeneration_install _ _ _ _ _)

/-- A connection that is met by its traffic reacts as the incident has it. -/
theorem answers_reacting {t : Tracker} (hkeyed : t.registry.IsKeyed) {key : ConnectionKey}
    {startTicks : UInt64} {i : Incident} {react : Connection → Reaction}
    (hbirth : ∀ c, c = Connection.start c.id .unknown .unknown →
      (Encounter.mk c true i).IsBirth)
    (hopening : i.isOpening = false) (hclosing : i.isClosing = false)
    (hreact : ∀ c, c.id.key = key → react c = c.undergo t.config t.control i) :
    t.Answers (t.sighting? key startTicks i) (t.reacting key startTicks react) := by
  unfold sighting? reacting
  -- A tracked connection reacts in its place; under another key one begins first.
  cases hfind : t.registry.find? key with
  | some c =>
    have hckey : c.id.key = key := hkeyed key c hfind
    refine Answers.revises hfind hckey hopening hclosing ?_ ?_
    · simp only [hreact c hckey]
    · simp only [hreact c hckey]
  | none =>
    refine answers_creating hbirth hclosing ?_ ?_ ?_ ?_
    · intro r c hckey
      simp only [hreact c hckey]
    · intro r c hckey _
      simp only [hreact c hckey, Registry.find?_put_self]
    · intro r c other hother
      exact Registry.find?_put_of_ne hother _ _
    · intro r c
      rfl

/-! ## Every step -/

@[simp] theorem announce_registry (o : Opened) (r : Registry) (c : Connection) :
    (announce o r c).registry = r := by
  unfold announce
  split <;> rfl

@[simp] theorem announce_events (o : Opened) (r : Registry) (c : Connection) :
    (announce o r c).events = c.announcement o := by
  unfold announce Connection.announcement
  split <;> rfl

theorem answers_opened (t : Tracker) (o : Opened) :
    t.Answers (t.encounter? (.observe (.opened o))) (t.opened o) := by
  by_cases hadmits : t.admits o.key.pid = true
  · simp only [encounter?, opened, if_pos hadmits, admitting_of_admits hadmits]
    cases hfind : t.registry.find? o.key with
    | none =>
      refine answers_creating (fun c hc => hc) rfl ?_ ?_ ?_ ?_
      · intro r c _
        exact announce_events o r c
      · intro r c _ hfound
        simpa [Connection.undergo] using hfound
      · intro r c other _
        simp
      · intro r c
        simp
    | some c =>
      -- A mere sighting leaves the tracked connection; a set-up one takes its place.
      cases hhint : o.hint with
      | implicit => exact Answers.idle rfl rfl
      | connect | accept =>
        refine Answers.begins (Registry.Within.refl _) rfl ?_ rfl ?_ ?_ ?_ ?_
        · simp only [Encounter.IsBirth, hhint]
          rfl
        · exact announce_events _ _ _
        · simp [Connection.undergo, Registry.install_snd]
        · intro other _
          simp
        · simp
  · simp only [encounter?, opened, if_neg hadmits]
    exact answers_admitting_of_not_admits hadmits _

/-- A call that moved bytes, of whatever kind. -/
theorem answers_moving {t : Tracker} (hkeyed : t.registry.IsKeyed) {key : ConnectionKey}
    {startTicks : UInt64} {i : Incident} (count : Nat) {react : Bool → Connection → Reaction}
    (hbirth : ∀ c, c = Connection.start c.id .unknown .unknown →
      (Encounter.mk c true i).IsBirth)
    (hopening : i.isOpening = false) (hclosing : i.isClosing = false)
    (hreact : ∀ c, c.id.key = key →
      react (t.control.forces key.pid) c = c.undergo t.config t.control i) :
    t.Answers
      (if count ≠ 0 ∧ t.admits key.pid then t.sighting? key startTicks i else none)
      (if count = 0 then t.nothingMoved
        else t.admitting key.pid fun force => t.reacting key startTicks (react force)) := by
  -- Bytes are asked for before the process is, so an empty call is never matched to the target.
  by_cases hcount : count = 0
  · have hnone : ¬(count ≠ 0 ∧ t.admits key.pid = true) := fun h => h.1 hcount
    rw [if_pos hcount, if_neg hnone]
    exact Answers.idle rfl rfl
  rw [if_neg hcount]
  by_cases hadmits : t.admits key.pid = true
  · rw [if_pos ⟨hcount, hadmits⟩, admitting_of_admits hadmits]
    exact answers_reacting hkeyed hbirth hopening hclosing hreact
  · have hnone : ¬(count ≠ 0 ∧ t.admits key.pid = true) := fun h => hadmits h.2
    rw [if_neg hnone]
    exact answers_admitting_of_not_admits hadmits _

theorem answers_transferred {t : Tracker} (hkeyed : t.registry.IsKeyed) (o : Transfer) :
    t.Answers (t.encounter? (.observe (.data o))) (t.transferred o) := by
  refine answers_moving hkeyed o.byteCount (fun c hc => hc) rfl rfl ?_
  intro c hckey
  rw [Connection.undergo, hckey]

theorem answers_fileTransferred {t : Tracker} (hkeyed : t.registry.IsKeyed) (o : FileTransfer) :
    t.Answers (t.encounter? (.observe (.sendfile o))) (t.fileTransferred o) := by
  refine answers_moving hkeyed o.byteCount (fun c hc => hc) rfl rfl ?_
  intro c hckey
  rw [Connection.undergo, hckey]

theorem answers_closed {t : Tracker} (hkeyed : t.registry.IsKeyed) (o : Closed) :
    t.Answers (t.encounter? (.observe (.closed o))) (t.closed o) := by
  by_cases hadmits : t.admits o.key.pid = true
  · simp only [encounter?, closed, if_pos hadmits, admitting_of_admits hadmits]
    cases hfind : t.registry.find? o.key with
    | none => exact Answers.idle rfl rfl
    | some c =>
      have hckey : c.id.key = o.key := hkeyed o.key c hfind
      refine ⟨rfl, ?_, ?_, ?_, ?_⟩
      · -- The key is dropped, which is what a close leaves.
        simp only [Encounter.key, hckey, Registry.find?_drop_self]
        rfl
      · intro other d _ hfound
        exact Registry.drop_within _ _ other d hfound
      · intro hnew
        cases hnew
      · intro _
        exact ⟨rfl, by simpa only [Encounter.key, hckey] using hfind, rfl⟩
  · simp only [encounter?, closed, if_neg hadmits]
    exact answers_admitting_of_not_admits hadmits _

theorem answers_tlsDetected {t : Tracker} (hkeyed : t.registry.IsKeyed) (o : TlsDetected) :
    t.Answers (t.encounter? (.observe (.tlsDetected o))) (t.tlsDetected o) := by
  by_cases hadmits : t.admits o.key.pid = true
  · simp only [encounter?, tlsDetected, if_pos hadmits, admitting_of_admits hadmits]
    exact answers_reacting hkeyed (fun c hc => hc) rfl rfl (fun c _ => rfl)
  · simp only [encounter?, tlsDetected, if_neg hadmits]
    exact answers_admitting_of_not_admits hadmits _

theorem passes_swept (t : Tracker) (ids : List ConnectionId) : t.Passes (t.swept ids) :=
  ⟨rfl, Registry.removeAll_within _ _, Registry.nextGeneration_removeAll _ _⟩

theorem answers_disabled {t : Tracker} (hkeyed : t.registry.IsKeyed) (key : ConnectionKey)
    (generation : UInt64) :
    t.Answers (t.encounter? (.disable key generation)) (t.disabled key generation) := by
  simp only [encounter?, disabled]
  cases hfind : t.registry.find? key with
  | none => exact Answers.idle rfl rfl
  | some c => exact Answers.revises hfind (hkeyed key c hfind) rfl rfl rfl rfl

/-- What a step does is what befalls its encounter, and nothing else. -/
theorem answers_respond {t : Tracker} (hkeyed : t.registry.IsKeyed) (s : Step) :
    t.Answers (t.encounter? s) (t.respond s) := by
  cases s with
  | observe o =>
    -- An observation is counted besides, but counts are no part of what an answer means here.
    cases o with
    | opened o => exact (answers_opened t o).congr rfl rfl
    | data o => exact (answers_transferred hkeyed o).congr rfl rfl
    | sendfile o => exact (answers_fileTransferred hkeyed o).congr rfl rfl
    | closed o => exact (answers_closed hkeyed o).congr rfl rfl
    | tlsDetected o => exact (answers_tlsDetected hkeyed o).congr rfl rfl
    | cleanup ids => exact passes_swept t ids
  | disable key generation => exact answers_disabled hkeyed key generation
  | look key => exact Answers.idle rfl rfl

end Tracker

end FlowTrace
