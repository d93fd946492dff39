import FlowTrace.Proofs.Chronicle

/-!
# Forwarding — the gate and the limits decide about data alone

Two trackers are given the same steps. One may forward everything and the other nothing, and each
may cut payloads in its own way. What they do besides data is the same: they report the same
connections and byte counts, give the same replies, track the same connections in the same state,
and count the same, but for what they count of data.

`besidesData` drops the data from what a tracker says. A reaction without its data is a function of
the accounting alone, `besidesData_move`, and every step hands this on.
-/

namespace FlowTrace

/-! ## Without the data -/

/-- The events that are no data. -/
def Event.besidesData (xs : List Event) : List Event :=
  xs.filter (·.chunk?.isNone)

/-- The counters without those of data that was sent, cut or held back. -/
def Counters.besidesData (c : Counters) : Counters :=
  { c with dataFiltered := 0, dataChunks := 0, truncatedBytes := 0, unreportedBytes := 0 }

def Reaction.besidesData (r : Reaction) : Reaction :=
  { r with events := Event.besidesData r.events, tally := r.tally.besidesData }

def Outcome.besidesData (o : Outcome) : Outcome :=
  { o with events := Event.besidesData o.events, tally := o.tally.besidesData }

/-- Two configurations that at most cut payloads in different ways. -/
structure Config.Alike (a b : Config) : Prop where
  inferenceSegments_eq : a.chunkLimits.inferenceSegments = b.chunkLimits.inferenceSegments
  statsThreshold_eq : a.statsThreshold = b.statsThreshold
  maxConnections_eq : a.maxConnections = b.maxConnections
  cleanupBatchSize_eq : a.cleanupBatchSize = b.cleanupBatchSize
  capacityPolicy_eq : a.capacityPolicy = b.capacityPolicy
  enabledProtocols_eq : a.enabledProtocols = b.enabledProtocols

/-- Two trackers that differ in their gates, in how they cut payloads, and in what they have counted
of data. -/
structure Tracker.Alike (t t' : Tracker) : Prop where
  config : t.config.Alike t'.config
  target_eq : t.control.target = t'.control.target
  registry_eq : t.registry = t'.registry
  counters_eq : t.counters.besidesData = t'.counters.besidesData

namespace Event

@[simp] theorem besidesData_append (xs ys : List Event) :
    besidesData (xs ++ ys) = besidesData xs ++ besidesData ys :=
  List.filter_append xs ys

@[simp] theorem besidesData_map_data (chunks : List DataChunk) :
    besidesData (chunks.map .data) = [] := by
  simp [besidesData, List.filter_eq_nil_iff, chunk?]

@[simp] theorem besidesData_map_stats (rs : List StatsReport) :
    besidesData (rs.map .stats) = rs.map .stats := by
  simp [besidesData, List.filter_eq_self, chunk?]

end Event

@[simp] theorem Counters.besidesData_add (a b : Counters) :
    (a + b).besidesData = a.besidesData + b.besidesData := by
  show (add a b).besidesData = add a.besidesData b.besidesData
  simp [besidesData, add]

/-- What is counted besides is counted alike. -/
theorem Outcome.besidesData_counting {o o' : Outcome} (h : o.besidesData = o'.besidesData)
    (tally : Counters) :
    Outcome.besidesData { o with tally := tally + o.tally } =
      Outcome.besidesData { o' with tally := tally + o'.tally } := by
  simp only [besidesData, mk.injEq, Counters.besidesData_add] at h ⊢
  rcases h with ⟨hregistry, hevents, htally, hreply⟩
  exact ⟨hregistry, hevents, congrArg (_ + ·) htally, hreply⟩

/-! ## One connection -/

namespace Connection

variable (c : Connection)

@[simp] theorem besidesData_forward (limits : ChunkLimits) (control : Control) (force : Bool)
    (m : Movement) : (c.forward limits control force m).2.besidesData = {} := by
  -- Whether it is sent or held back, it is only counted as data.
  unfold forward
  split <;> rfl

/-- Besides its data, a movement is what the accounting makes of it. -/
theorem besidesData_move (config : Config) (control : Control) (force : Bool) (m : Movement) :
    (c.move config control force m).besidesData =
      { connection := (c.account config.statsThreshold m).1
        events := (c.account config.statsThreshold m).2.toList.map .stats
        tally := {} +
          { statsEvents := (c.account config.statsThreshold m).2.toList.length.toUInt64 } } := by
  simp only [move, Reaction.besidesData, Event.besidesData_append, Event.besidesData_map_data,
    Event.besidesData_map_stats, List.nil_append, Counters.besidesData_add, besidesData_forward]
  rfl

/-- Besides its data, a transfer is what the classification and its movement make of it. -/
theorem besidesData_transfer_congr {config config' : Config} {control control' : Control}
    {force : Bool} {o o' : Transfer} (hssl : o.ssl = o'.ssl)
    (hsampled : c.sampled config o = c.sampled config' o')
    (hmove : ∀ header?, ((c.sampled config' o').move config control force
        (o.movement header?)).besidesData =
      ((c.sampled config' o').move config' control' force (o'.movement header?)).besidesData) :
    (c.transfer config control force o).besidesData =
      (c.transfer config' control' force o').besidesData := by
  by_cases htraceable : (!c.address.isTraceable) = true
  · simp only [transfer, if_pos htraceable]
  by_cases htls : (c.ssl != o'.ssl) = true
  · have htls' : (c.ssl != o.ssl) = true := hssl ▸ htls
    simp only [transfer, if_neg htraceable, if_pos htls, if_pos htls']
  · have htls' : ¬(c.ssl != o.ssl) = true := hssl ▸ htls
    -- The latch is counted on top of the movement, and it is found in the same sample.
    have hmove := hmove (c.sampled config' o').carry.lengthHeader
    simp only [Reaction.besidesData, Reaction.mk.injEq] at hmove
    simp only [transfer, hsampled, if_neg htraceable, if_neg htls, if_neg htls',
      Reaction.besidesData, Reaction.mk.injEq, Counters.besidesData_add]
    exact ⟨hmove.1, hmove.2.1, congrArg (· + _) hmove.2.2⟩

end Connection

namespace Config.Alike

variable {config config' : Config} (h : config.Alike config')

include h

theorem sample?_eq (p : Payload) (count : Nat) :
    p.sample? config.chunkLimits count = p.sample? config'.chunkLimits count := by
  cases p with
  | flat buffer => rfl
  | segments parts => simp only [Payload.sample?, h.inferenceSegments_eq]

/-- Both classify the same bytes by the same signatures. -/
theorem sampled_eq (c : Connection) (o : Transfer) :
    c.sampled config o = c.sampled config' o := by
  simp only [Connection.sampled, h.sample?_eq, h.enabledProtocols_eq]

variable (c : Connection) (control control' : Control) (force : Bool)

theorem move_eq (m : Movement) :
    (c.move config control force m).besidesData =
      (c.move config' control' force m).besidesData := by
  simp only [Connection.besidesData_move, h.statsThreshold_eq]

theorem transfer_eq (o : Transfer) :
    (c.transfer config control force o).besidesData =
      (c.transfer config' control' force o).besidesData := by
  -- A connection is classified by both alike.
  refine Connection.besidesData_transfer_congr c rfl (h.sampled_eq c o) ?_
  intro header?
  exact h.move_eq _ _ _ _ _

theorem transferFile_eq (o : FileTransfer) :
    (c.transferFile config control force o).besidesData =
      (c.transferFile config' control' force o).besidesData := by
  unfold Connection.transferFile
  split
  · rfl
  · exact h.move_eq c control control' force o.movement

end Config.Alike

/-! ## One step -/

namespace Tracker.Alike

variable {t t' : Tracker} (h : t.Alike t')

include h

theorem nothingMoved : t.nothingMoved.besidesData = t'.nothingMoved.besidesData := by
  simp only [Tracker.nothingMoved, h.registry_eq]

theorem admitting (pid : UInt32) {go go' : Bool → Outcome}
    (hgo : ∀ force, (go force).besidesData = (go' force).besidesData) :
    (t.admitting pid go).besidesData = (t'.admitting pid go').besidesData := by
  simp only [Tracker.admitting, h.target_eq]
  cases t'.control.target.force? pid with
  | some force => exact hgo force
  | none => simp only [h.registry_eq]

theorem creating (key : ConnectionKey) (startTicks : UInt64) (address : RemoteAddress)
    (role : Role) {go go' : Registry → Connection → Outcome}
    (hgo : ∀ r c, (go r c).besidesData = (go' r c).besidesData) :
    (t.creating key startTicks address role go).besidesData =
      (t'.creating key startTicks address role go').besidesData := by
  simp only [Tracker.creating, h.registry_eq]
  cases t'.registry.create? key startTicks address role with
  | none => rfl
  | some creation =>
    exact Outcome.besidesData_counting (hgo creation.registry creation.connection) _

theorem reacting (key : ConnectionKey) (startTicks : UInt64) {react react' : Connection → Reaction}
    (hreact : ∀ c, (react c).besidesData = (react' c).besidesData) :
    (t.reacting key startTicks react).besidesData =
      (t'.reacting key startTicks react').besidesData := by
  -- What is stored is what the reaction leaves, and that is no data.
  have hsettle : ∀ (r : Registry) (c : Connection),
      (Outcome.mk (r.put key (react c).connection) (react c).events (react c).tally
        .silent).besidesData =
      (Outcome.mk (r.put key (react' c).connection) (react' c).events (react' c).tally
        .silent).besidesData := by
    intro r c
    have hsame := hreact c
    simp only [Reaction.besidesData, Reaction.mk.injEq] at hsame
    simp only [Outcome.besidesData, hsame]
  simp only [Tracker.reacting, h.registry_eq]
  cases t'.registry.find? key with
  | some c => exact hsettle t'.registry c
  | none => exact h.creating key startTicks .unknown .unknown hsettle

theorem opened (o : Opened) : (t.opened o).besidesData = (t'.opened o).besidesData := by
  apply h.admitting
  intro _
  -- An announcement is no data, and it is made of the opening alone.
  simp only [h.registry_eq]
  cases t'.registry.find? o.key with
  | some c => cases o.hint <;> rfl
  | none => exact h.creating _ _ _ _ fun _ _ => rfl

theorem transferred (o : Transfer) :
    (t.transferred o).besidesData = (t'.transferred o).besidesData := by
  unfold Tracker.transferred
  split
  · exact h.nothingMoved
  · apply h.admitting
    -- The target alone decides whether the masks are passed over.
    intro force
    apply h.reacting
    intro c
    exact h.config.transfer_eq c _ _ force o

theorem fileTransferred (o : FileTransfer) :
    (t.fileTransferred o).besidesData = (t'.fileTransferred o).besidesData := by
  unfold Tracker.fileTransferred
  split
  · exact h.nothingMoved
  · apply h.admitting
    intro force
    apply h.reacting
    intro c
    exact h.config.transferFile_eq c _ _ force o

theorem closed (o : Closed) : (t.closed o).besidesData = (t'.closed o).besidesData := by
  apply h.admitting
  intro _
  simp only [h.registry_eq]

theorem tlsDetected (o : TlsDetected) :
    (t.tlsDetected o).besidesData = (t'.tlsDetected o).besidesData := by
  apply h.admitting
  intro _
  exact h.reacting _ _ fun _ => rfl

theorem swept (ids : List ConnectionId) :
    (t.swept ids).besidesData = (t'.swept ids).besidesData := by
  simp only [Tracker.swept, h.registry_eq, h.config.cleanupBatchSize_eq]

theorem disabled (key : ConnectionKey) (generation : UInt64) :
    (t.disabled key generation).besidesData = (t'.disabled key generation).besidesData := by
  simp only [Tracker.disabled, h.registry_eq]

/-- Besides data, both answer a step in the same way. -/
theorem respond (s : Step) : (t.respond s).besidesData = (t'.respond s).besidesData := by
  cases s with
  | observe o =>
    -- An observation is counted on top of what it does.
    cases o with
    | opened o => exact Outcome.besidesData_counting (h.opened o) _
    | data o => exact Outcome.besidesData_counting (h.transferred o) _
    | sendfile o => exact Outcome.besidesData_counting (h.fileTransferred o) _
    | closed o => exact Outcome.besidesData_counting (h.closed o) _
    | tlsDetected o => exact Outcome.besidesData_counting (h.tlsDetected o) _
    | cleanup ids => exact h.swept ids
  | disable key generation => exact h.disabled key generation
  | look key => simp only [Tracker.respond, connection?, h.registry_eq]

theorem next (s : Step) : (t.next s).Alike (t'.next s) := by
  have hrespond := h.respond s
  simp only [Outcome.besidesData, Outcome.mk.injEq] at hrespond
  refine ⟨h.config, h.target_eq, hrespond.1, ?_⟩
  calc
    (t.counters + (t.respond s).tally).besidesData
        = t.counters.besidesData + (t.respond s).tally.besidesData :=
      Counters.besidesData_add _ _
    _ = t'.counters.besidesData + (t'.respond s).tally.besidesData := by
      simp only [h.counters_eq, hrespond]
    _ = (t'.counters + (t'.respond s).tally).besidesData :=
      (Counters.besidesData_add _ _).symm

/-! ## Runs -/

theorem run (steps : List Step) : (t.run steps).Alike (t'.run steps) := by
  induction steps generalizing t t' with
  | nil => exact h
  | cons s steps ih => exact ih (h.next s)

theorem outcomes (steps : List Step) :
    (t.outcomes steps).map Outcome.besidesData = (t'.outcomes steps).map Outcome.besidesData := by
  induction steps generalizing t t' with
  | nil => rfl
  | cons s steps ih =>
    have hrest : ((t.next s).outcomes steps).map Outcome.besidesData =
        ((t'.next s).outcomes steps).map Outcome.besidesData := ih (h.next s)
    simp only [Tracker.outcomes, List.map_cons, h.respond s, hrest]

end Tracker.Alike

namespace Tracker

variable {config config' : Config} {control control' : Control} {t t' : Tracker}

theorem alike_of_make (h : make config control = .ok t) (h' : make config' control' = .ok t')
    (hconfig : config.Alike config') (htarget : control.target = control'.target) :
    t.Alike t' := by
  rcases make_eq_ok h with ⟨rfl, -, -⟩
  rcases make_eq_ok h' with ⟨rfl, -, -⟩
  refine ⟨hconfig, htarget, ?_, rfl⟩
  simp only [hconfig.maxConnections_eq, hconfig.capacityPolicy_eq]

/-- Of two trackers with the same target, whose configurations cut payloads at most in different
ways, every step of a run gets the same events besides data and the same reply, and after any run
they show the same connections, as many of them, and the same counters but for those of data. -/
theorem forwarding_only_data (h : make config control = .ok t)
    (h' : make config' control' = .ok t') (hconfig : config.Alike config')
    (htarget : control.target = control'.target) (steps : List Step) :
    (t.outcomes steps).map (fun o => (Event.besidesData o.events, o.reply)) =
        (t'.outcomes steps).map (fun o => (Event.besidesData o.events, o.reply)) ∧
      (∀ key, (t.run steps).connection? key = (t'.run steps).connection? key) ∧
      (t.run steps).size = (t'.run steps).size ∧
      (t.run steps).counters.besidesData = (t'.run steps).counters.besidesData := by
  have halike := alike_of_make h h' hconfig htarget
  have hrun := halike.run steps
  refine ⟨?_, ?_, ?_, hrun.counters_eq⟩
  · have houtcomes := halike.outcomes steps
    simpa [Function.comp_def, Outcome.besidesData] using
      congrArg (List.map fun o => (o.events, o.reply)) houtcomes
  · intro key
    simp only [connection?, hrun.registry_eq]
  · simp only [size, hrun.registry_eq]

/-- A tracker that forwards nothing, and that would cut payloads into single bytes. -/
def reticent : Tracker where
  config :=
    { Config.standard with
      chunkLimits :=
        { maxChunkSize := 1, maxChunks := 2, maxSegments := 1, inferenceSegments := 3 } }
  control := { Control.nothing with selfPid := some 9 }
  registry := .empty Config.standard.maxConnections Config.standard.capacityPolicy
  counters := {}

theorem make_reticent : make reticent.config reticent.control = .ok reticent :=
  rfl

/-- One tracker forwards the requests and the file of the upload, and the other forwards nothing.
They report the same otherwise, and show the same connection in the end. -/
theorem forwarding_only_data_upload :
    make .standard .everything = .ok standard ∧
      make reticent.config reticent.control = .ok reticent ∧
      (Event.chunks (standard.events (Session.upload ⟨7, 3⟩))).length = 3 ∧
      Event.chunks (reticent.events (Session.upload ⟨7, 3⟩)) = [] ∧
      (standard.outcomes (Session.upload ⟨7, 3⟩)).map
          (fun o => (Event.besidesData o.events, o.reply)) =
        (reticent.outcomes (Session.upload ⟨7, 3⟩)).map
          (fun o => (Event.besidesData o.events, o.reply)) ∧
      (standard.run (Session.upload ⟨7, 3⟩)).connection? ⟨7, 3⟩ =
        (reticent.run (Session.upload ⟨7, 3⟩)).connection? ⟨7, 3⟩ := by
  have hchunks : (Event.chunks (standard.events (Session.upload ⟨7, 3⟩))).length = 3 := by
    decide +kernel
  have hnone : Event.chunks (reticent.events (Session.upload ⟨7, 3⟩)) = [] := by decide +kernel
  have halike : Config.standard.Alike reticent.config := ⟨rfl, rfl, rfl, rfl, rfl, rfl⟩
  rcases forwarding_only_data make_standard make_reticent halike rfl (Session.upload ⟨7, 3⟩) with
    ⟨hevents, hconnection, -, -⟩
  exact ⟨make_standard, make_reticent, hchunks, hnone, hevents, hconnection ⟨7, 3⟩⟩

end Tracker

end FlowTrace
