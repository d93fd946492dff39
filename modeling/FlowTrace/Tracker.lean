import FlowTrace.Control
import FlowTrace.Counters
import FlowTrace.Observation
import FlowTrace.Registry
import FlowTrace.Traffic

/-!
# Tracker — from observations to events

A tracker takes one step after another: an observation, an order to stop forwarding the data of a
connection, or a question about a connection. The answer to a step is computed from the tracker
alone, and the next tracker is made of the answer, so a run is a fold over its steps.
-/

namespace FlowTrace

structure Tracker where
  config : Config
  control : Control
  registry : Registry
  counters : Counters

inductive Step
  | observe (o : Observation)
  /-- Stop forwarding the data of a key for generations up to this one. -/
  | disable (key : ConnectionKey) (generation : UInt64)
  | look (key : ConnectionKey)
  deriving DecidableEq, Repr

/-- What the caller of a step learns besides the events. -/
inductive Reply
  | silent
  /-- How many connections a sweep removed. -/
  | removed (count : Nat)
  /-- Whether there was a connection to disable. -/
  | applied (found : Bool)
  | view (snapshot : Option Connection.Snapshot)
  deriving DecidableEq, Repr

/-- The answer to a step. -/
structure Outcome where
  registry : Registry
  events : List Event := []
  tally : Counters := {}
  reply : Reply := .silent
  deriving DecidableEq, Repr

namespace Tracker

/-- A tracker of no connections, if configuration and control pass their checks. -/
def make (config : Config) (control : Control) : Except ConfigError Tracker := do
  config.check
  control.check
  pure
    { config
      control
      registry := .empty config.maxConnections config.capacityPolicy
      counters := {} }

def size (t : Tracker) : Nat :=
  t.registry.size

def isEmpty (t : Tracker) : Bool :=
  t.size == 0

def connection? (t : Tracker) (key : ConnectionKey) : Option Connection.Snapshot :=
  (t.registry.find? key).map Connection.snapshot

/-! ## Admission -/

/-- Goes on only with processes that the target admits. -/
def admitting (t : Tracker) (pid : UInt32) (go : (force : Bool) → Outcome) : Outcome :=
  match t.control.target.force? pid with
  | some force => go force
  | none => { registry := t.registry, tally := { unmatchedTarget := 1 } }

/-- A call that moved no bytes is not even matched against the target. -/
def nothingMoved (t : Tracker) : Outcome :=
  { registry := t.registry, tally := { emptyData := 1 } }

/-- Starts a connection under a key that is not tracked, and goes on with it. -/
def creating (t : Tracker) (key : ConnectionKey) (startTicks : UInt64) (address : RemoteAddress)
    (role : Role) (go : Registry → Connection → Outcome) : Outcome :=
  match t.registry.create? key startTicks address role with
  | some creation =>
    let outcome := go creation.registry creation.connection
    let created : Counters :=
      { connectionsCreated := 1, capacityEvicted := if creation.evicted then 1 else 0 }
    { outcome with tally := created + outcome.tally }
  | none => { registry := t.registry, tally := { capacityRejected := 1 } }

/-- Lets the connection of a key react. A handle that is first seen by its traffic is tracked from
then on, with nothing known about it. -/
def reacting (t : Tracker) (key : ConnectionKey) (startTicks : UInt64)
    (react : Connection → Reaction) : Outcome :=
  let settle (r : Registry) (c : Connection) : Outcome :=
    let reaction := react c
    { registry := r.put key reaction.connection
      events := reaction.events
      tally := reaction.tally }
  match t.registry.find? key with
  | some c => settle t.registry c
  | none => t.creating key startTicks .unknown .unknown settle

/-! ## Observations -/

/-- Announces a connection that was just started. -/
def announce (o : Opened) (r : Registry) (c : Connection) : Outcome :=
  if o.address.isTraceable then
    { registry := r
      events :=
        [ .opened
            { timestamp := o.timestamp
              id := c.id
              operation := o.operation
              address := o.address
              role := Role.ofHint o.hint } ] }
  else { registry := r, tally := { nonInetSkipped := 1 } }

/-- A set-up connection replaces what was tracked under its key; traffic that was merely sighted
changes nothing of a tracked connection. -/
def opened (t : Tracker) (o : Opened) : Outcome :=
  t.admitting o.key.pid fun _ =>
    match t.registry.find? o.key, o.hint with
    | some _, .implicit => { registry := t.registry }
    | some _, _ =>
      let (r, c) := t.registry.install o.key o.startTicks o.address (Role.ofHint o.hint)
      announce o r c
    | none, _ => t.creating o.key o.startTicks o.address (Role.ofHint o.hint) (announce o)

def transferred (t : Tracker) (o : Transfer) : Outcome :=
  if o.byteCount = 0 then t.nothingMoved
  else
    t.admitting o.key.pid fun force =>
      t.reacting o.key o.startTicks fun c => c.transfer t.config t.control force o

def fileTransferred (t : Tracker) (o : FileTransfer) : Outcome :=
  if o.byteCount = 0 then t.nothingMoved
  else
    t.admitting o.key.pid fun force =>
      t.reacting o.key o.startTicks fun c => c.transferFile t.config t.control force o

def closed (t : Tracker) (o : Closed) : Outcome :=
  t.admitting o.key.pid fun _ =>
    match t.registry.find? o.key with
    | some c =>
      let (events, tally) := c.finish o.timestamp
      { registry := t.registry.drop o.key
        events
        tally := { connectionsClosed := 1 } + tally }
    | none => { registry := t.registry, tally := { lookupMiss := 1 } }

def tlsDetected (t : Tracker) (o : TlsDetected) : Outcome :=
  t.admitting o.key.pid fun _ =>
    t.reacting o.key o.startTicks fun c => ⟨{ c with ssl := true }, [], {}⟩

/-- Removes the incarnations that are named, as far as one sweep goes. -/
def swept (t : Tracker) (ids : List ConnectionId) : Outcome :=
  let (r, removals) := t.registry.removeAll (ids.take t.config.cleanupBatchSize)
  { registry := r
    tally :=
      { cleanupRemoved := (removals.count .removed).toUInt64
        cleanupStale := (removals.count .stale).toUInt64
        lookupMiss := (removals.count .missing).toUInt64
        cleanupDeferred := (ids.drop t.config.cleanupBatchSize).length.toUInt64 }
    reply := .removed (removals.count .removed) }

/-- Every observation is counted, except that a sweep comes from the reader of the events and is no
observation of a process. -/
def observed (t : Tracker) : Observation → Outcome
  | .opened o => counted (t.opened o)
  | .data o => counted (t.transferred o)
  | .sendfile o => counted (t.fileTransferred o)
  | .closed o => counted (t.closed o)
  | .tlsDetected o => counted (t.tlsDetected o)
  | .cleanup ids => t.swept ids
where
  counted (outcome : Outcome) : Outcome :=
    { outcome with tally := { observations := 1 } + outcome.tally }

/-! ## Steps and runs -/

def disabled (t : Tracker) (key : ConnectionKey) (generation : UInt64) : Outcome :=
  match t.registry.find? key with
  | some c =>
    { registry := t.registry.put key (c.disableUpTo generation), reply := .applied true }
  | none =>
    { registry := t.registry, tally := { lookupMiss := 1 }, reply := .applied false }

/-- The answer to a step. -/
def respond (t : Tracker) : Step → Outcome
  | .observe o => t.observed o
  | .disable key generation => t.disabled key generation
  | .look key => { registry := t.registry, reply := .view (t.connection? key) }

/-- The tracker after an answer was given. -/
def advance (t : Tracker) (outcome : Outcome) : Tracker :=
  { t with registry := outcome.registry, counters := t.counters + outcome.tally }

def next (t : Tracker) (s : Step) : Tracker :=
  t.advance (t.respond s)

/-- The tracker after a run. -/
def run (t : Tracker) (steps : List Step) : Tracker :=
  steps.foldl next t

/-- The answers of a run, in order. -/
def outcomes (t : Tracker) : List Step → List Outcome
  | [] => []
  | s :: steps => t.respond s :: (t.next s).outcomes steps

/-- The events of a run, in order. -/
def events (t : Tracker) (steps : List Step) : List Event :=
  (t.outcomes steps).flatMap Outcome.events

end Tracker

end FlowTrace
