import FlowTrace.Proofs.Partition

/-!
# Drops — a call is dropped for one reason, or its bytes balance

A call passes six checks, one after the other: it moved bytes, its process is admitted, its handle is
tracked or finds room, its address is reported, its bytes are those of the plain text, and the gate
lets them through. Each check has its own counter. A call that fails one is counted there and
nowhere else, and nothing of it is sent. The bytes of a call that passes them all are in the payloads
of its chunks, or counted as truncated or unreported.

`Tracker.drop?` reads off a tracker which check a call fails. `accounted_once` says that what is
counted tells the same, and tells nothing else as well.
-/

namespace FlowTrace

/-- Why nothing of a call is sent. -/
inductive Drop
  /-- It moved no bytes. -/
  | empty
  /-- The target does not admit its process. -/
  | foreign
  /-- Its handle is not tracked, and there is no room for it. -/
  | refused
  /-- Its address is of another family. -/
  | otherFamily
  /-- It is plain text on a TLS connection, or the other way round. -/
  | tlsMismatch
  /-- The gate does not let it through. -/
  | heldBack
  deriving DecidableEq, Repr

namespace Counters

/-- The counter of a reason. -/
def drops (c : Counters) : Drop → UInt64
  | .empty => c.emptyData
  | .foreign => c.unmatchedTarget
  | .refused => c.capacityRejected
  | .otherFamily => c.nonInetSkipped
  | .tlsMismatch => c.sslMismatch
  | .heldBack => c.dataFiltered

/-- What is counted of the data of calls: why it was dropped, or what was sent and cut. -/
def handled (c : Counters) : Counters where
  emptyData := c.emptyData
  unmatchedTarget := c.unmatchedTarget
  capacityRejected := c.capacityRejected
  nonInetSkipped := c.nonInetSkipped
  sslMismatch := c.sslMismatch
  dataFiltered := c.dataFiltered
  dataChunks := c.dataChunks
  truncatedBytes := c.truncatedBytes
  unreportedBytes := c.unreportedBytes

@[simp] theorem handled_add (a b : Counters) : (a + b).handled = a.handled + b.handled := by
  show (add a b).handled = add a.handled b.handled
  simp [handled, add]

end Counters

/-- What is counted of a call that is dropped. -/
def Drop.tally : Drop → Counters
  | empty => { emptyData := 1 }
  | foreign => { unmatchedTarget := 1 }
  | refused => { capacityRejected := 1 }
  | otherFamily => { nonInetSkipped := 1 }
  | tlsMismatch => { sslMismatch := 1 }
  | heldBack => { dataFiltered := 1 }

/-! ## What a fate leaves in the books -/

/-- A call that is dropped is counted once, for its reason. -/
structure Drop.Accounts (d : Drop) (tally : Counters) (chunks : List DataChunk) : Prop where
  drops_eq : ∀ d', tally.drops d' = if d' = d then 1 else 0
  chunks_eq : chunks = []
  dataChunks_eq : tally.dataChunks = 0
  truncatedBytes_eq : tally.truncatedBytes = 0
  unreportedBytes_eq : tally.unreportedBytes = 0

/-- Of a call that is sent, every byte has its place: a chunk stands for it, or it is unreported, and
the chunk holds it, or it is truncated. -/
structure Balance (count : Nat) (tally : Counters) (chunks : List DataChunk) : Prop where
  drops_eq : ∀ d, tally.drops d = 0
  dataChunks_eq : tally.dataChunks = .ofNat chunks.length
  size : ∃ unreported, DataChunk.totalSize chunks + unreported = count ∧
    tally.unreportedBytes = .ofNat unreported
  held : ∃ truncated,
    (chunks.flatMap (·.payload)).length + truncated = DataChunk.totalSize chunks ∧
      tally.truncatedBytes = .ofNat truncated

/-- What was counted and sent of a call of `count` bytes is what its fate says. -/
def Accounts (count : Nat) (tally : Counters) (chunks : List DataChunk) : Option Drop → Prop
  | some d => d.Accounts tally chunks
  | none => Balance count tally chunks

namespace Accounts

variable {count : Nat} {tally tally' : Counters} {chunks : List DataChunk} {fate fate' : Option Drop}

theorem of_drop (d : Drop) : Accounts count d.tally [] (some d) := by
  refine ⟨?_, rfl, ?_, ?_, ?_⟩
  · intro d'
    cases d <;> cases d' <;> rfl
  all_goals cases d <;> rfl

/-- Only what is counted of data matters. -/
theorem congr (h : Accounts count tally chunks fate) (hsame : tally'.handled = tally.handled) :
    Accounts count tally' chunks fate := by
  have hdrops : ∀ d, tally'.drops d = tally.drops d := by
    intro d
    have hd := congrArg (·.drops d) hsame
    cases d <;> exact hd
  cases fate with
  | some d =>
    refine ⟨?_, h.chunks_eq, (congrArg Counters.dataChunks hsame).trans h.dataChunks_eq,
      (congrArg Counters.truncatedBytes hsame).trans h.truncatedBytes_eq,
      (congrArg Counters.unreportedBytes hsame).trans h.unreportedBytes_eq⟩
    intro d'
    rw [hdrops, h.drops_eq]
  | none =>
    rcases h.size with ⟨unreported, hsize, hunreported⟩
    rcases h.held with ⟨truncated, hheld, htruncated⟩
    refine ⟨?_, (congrArg Counters.dataChunks hsame).trans h.dataChunks_eq,
      ⟨unreported, hsize, (congrArg Counters.unreportedBytes hsame).trans hunreported⟩,
      ⟨truncated, hheld, (congrArg Counters.truncatedBytes hsame).trans htruncated⟩⟩
    intro d
    rw [hdrops, h.drops_eq]

/-- The books tell one fate from another. -/
theorem fate_unique (h : Accounts count tally chunks fate) (h' : Accounts count tally chunks fate') :
    fate = fate' := by
  -- The fate is the one reason that is counted, if there is one.
  have hcounted : ∀ {f : Option Drop}, Accounts count tally chunks f →
      ∀ d, f = some d ↔ tally.drops d = 1 := by
    intro f hf d
    cases f with
    | some e =>
      rw [hf.drops_eq d]
      by_cases hd : d = e
      · simp [hd]
      · simp [hd, Ne.symm hd]
    | none =>
      rw [hf.drops_eq d]
      simp
  ext d
  exact (hcounted h d).trans (hcounted h' d).symm

end Accounts

/-! ## One connection -/

/-- A payload, or nothing of a file, is a leading part of what its pieces stand for. -/
theorem Movement.held_add_truncated (m : Movement) (limits : ChunkLimits) :
    ((m.pieces limits).flatMap (·.payload)).length + Piece.truncated (m.pieces limits) =
      Piece.totalSize (m.pieces limits) := by
  unfold pieces
  split
  · next payload _ =>
    cases payload with
    | flat buffer => exact (Piece.reads_ofFlat limits.maxChunks _ buffer).held_add_truncated
    | segments parts =>
      exact (Piece.reads_ofSegments _ (parts.take limits.maxSegments) []).held_add_truncated
  · simp [Piece.unstaged, Piece.truncated, Piece.totalSize]

namespace Connection

variable (c : Connection) (config : Config) (control : Control)

/-- The check that a call fails on a connection. -/
def drop? (i : Incident) : Option Drop :=
  match c.moving? config i with
  | some (c', _) =>
    if control.sends (control.forces c.id.key.pid) c' then none else some .heldBack
  | none => if c.address.isTraceable then some .tlsMismatch else some .otherFamily

/-- What a movement counts of data is what it forwards. -/
theorem handled_move (force : Bool) (m : Movement) :
    (c.move config control force m).tally.handled =
      (c.forward config.chunkLimits control force m).2.handled := by
  simp only [move, Counters.handled_add]
  exact Counters.add_zero _

theorem accounts_forward (limits : ChunkLimits) (force : Bool) (m : Movement) :
    Accounts m.byteCount (c.forward limits control force m).2 (c.forward limits control force m).1
      (if control.sends force c then none else some .heldBack) := by
  by_cases hsends : control.sends force c = true
  · -- The pieces stand for no more than what moved, and hold what is not truncated of it.
    have hle := m.totalSize_pieces_le limits
    have hheld := m.held_add_truncated limits
    simp only [forward, if_pos hsends]
    refine ⟨?_, ?_, ?_, ?_⟩
    · intro d
      cases d <;> rfl
    · simp [length_chunks]
    · refine ⟨m.byteCount - Piece.totalSize (m.pieces limits), ?_, by simp⟩
      rw [totalSize_chunks]
      omega
    · refine ⟨Piece.truncated (m.pieces limits), ?_, by simp⟩
      rw [totalSize_chunks, flatMap_payload_chunks, hheld]
  · simp only [forward, if_neg hsends]
    exact .of_drop .heldBack

variable {c config} in
/-- An incident that is accounted is sent, or held back. -/
theorem accounts_of_moving {i : Incident} {c' : Connection} {m : Movement}
    (h : c.moving? config i = some (c', m)) :
    Accounts m.byteCount (c.undergo config control i).tally
      (Event.chunks (c.undergo config control i).events) (c.drop? config control i) := by
  rcases tally_of_moving control h with ⟨latched, htally⟩
  have hforward := accounts_forward c' control config.chunkLimits (control.forces c.id.key.pid) m
  rw [← chunks_of_moving control h] at hforward
  simp only [drop?, h]
  apply hforward.congr
  rw [htally, Counters.handled_add, handled_move]
  exact Counters.add_zero _

theorem accounts_data (o : Transfer) :
    Accounts o.byteCount (c.undergo config control (.data o)).tally
      (Event.chunks (c.undergo config control (.data o)).events)
      (c.drop? config control (.data o)) := by
  cases hmoving : c.moving? config (.data o) with
  | some p =>
    have haccounts := accounts_of_moving control hmoving
    rcases moving?_cases hmoving with ⟨o', ho, -, -, hm⟩ | ⟨o', ho, -⟩
    · cases ho
      rw [hm] at haccounts
      exact haccounts
    · cases ho
  | none =>
    have hfails := not_takes_of_moving? hmoving
    simp only [drop?, hmoving]
    -- The address is checked first, so only past it the plain text is to blame.
    by_cases htraceable : c.address.isTraceable = true
    · have hssl : (c.ssl != o.ssl) = true := by simpa [takes, htraceable] using hfails
      simp only [undergo, transfer, htraceable, hssl, Bool.not_true, Bool.false_eq_true, if_false,
        if_true]
      exact .of_drop .tlsMismatch
    · have hother : c.address.isTraceable = false := by simpa using htraceable
      simp only [undergo, transfer, hother, Bool.not_false, if_true, Bool.false_eq_true, if_false]
      exact .of_drop .otherFamily

theorem accounts_sendfile (o : FileTransfer) :
    Accounts o.byteCount (c.undergo config control (.sendfile o)).tally
      (Event.chunks (c.undergo config control (.sendfile o)).events)
      (c.drop? config control (.sendfile o)) := by
  cases hmoving : c.moving? config (.sendfile o) with
  | some p =>
    have haccounts := accounts_of_moving control hmoving
    rcases moving?_cases hmoving with ⟨o', ho, -⟩ | ⟨o', ho, -, -, hm⟩
    · cases ho
    · cases ho
      rw [hm] at haccounts
      exact haccounts
  | none =>
    have hother : c.address.isTraceable = false := by
      simpa using not_traceable_of_moving? hmoving
    simp only [drop?, hmoving, undergo, transferFile, hother, Bool.not_false, if_true,
      Bool.false_eq_true, if_false]
    exact .of_drop .otherFamily

/-- There is no plain text of a file. -/
theorem drop?_sendfile_ne (o : FileTransfer) :
    c.drop? config control (.sendfile o) ≠ some .tlsMismatch := by
  cases htraceable : c.address.isTraceable with
  | true =>
    simp only [drop?, moving?, htraceable, if_true]
    split <;> simp
  | false => simp [drop?, moving?, htraceable]

end Connection

/-! ## Steps -/

/-- The bytes that a call says it moved. -/
def Step.byteCount? : Step → Option Nat
  | observe (.data o) => some o.byteCount
  | observe (.sendfile o) => some o.byteCount
  | _ => none

namespace Tracker

variable (t : Tracker)

/-- The check that a call of a process fails. -/
def callDrop? (byteCount : Nat) (key : ConnectionKey) (startTicks : UInt64) (i : Incident) :
    Option Drop :=
  if byteCount = 0 then some .empty
  else if t.admits key.pid then
    match t.sighting? key startTicks i with
    | some e => e.connection.drop? t.config t.control i
    | none => some .refused
  else some .foreign

/-- The check that a step fails, if it is a call. -/
def drop? : Step → Option Drop
  | .observe (.data o) => t.callDrop? o.byteCount o.key o.startTicks (.data o)
  | .observe (.sendfile o) => t.callDrop? o.byteCount o.key o.startTicks (.sendfile o)
  | _ => none

variable {t} {count : Nat} {key : ConnectionKey} {startTicks : UInt64} {i : Incident}
  {react : Connection → Reaction}

/-- A connection that begins is counted as such, and that is no matter of its data. -/
theorem accounts_reacting (hkeyed : t.registry.IsKeyed)
    (hreact : ∀ c, c.id.key = key →
      Accounts count (react c).tally (Event.chunks (react c).events)
        (c.drop? t.config t.control i)) :
    Accounts count (t.reacting key startTicks react).tally
      (Event.chunks (t.reacting key startTicks react).events)
      (match t.sighting? key startTicks i with
        | some e => e.connection.drop? t.config t.control i
        | none => some .refused) := by
  unfold sighting? reacting
  cases hfind : t.registry.find? key with
  | some c => exact hreact c (hkeyed key c hfind)
  | none =>
    simp only [creating]
    cases hcreate : t.registry.create? key startTicks .unknown .unknown with
    | none => exact .of_drop .refused
    | some creation =>
      apply (hreact creation.connection (key_of_create? hcreate)).congr
      rw [Counters.handled_add]
      exact Counters.zero_add _

theorem accounts_call (hkeyed : t.registry.IsKeyed) (react : Bool → Connection → Reaction)
    (hreact : ∀ c, c.id.key = key →
      Accounts count (react (t.control.forces key.pid) c).tally
        (Event.chunks (react (t.control.forces key.pid) c).events)
        (c.drop? t.config t.control i)) {out : Outcome}
    (hout : out = if count = 0 then t.nothingMoved
      else t.admitting key.pid fun force => t.reacting key startTicks (react force)) :
    Accounts count out.tally (Event.chunks out.events) (t.callDrop? count key startTicks i) := by
  subst hout
  unfold callDrop?
  by_cases hempty : count = 0
  · simp only [if_pos hempty]
    exact .of_drop .empty
  by_cases hadmits : t.admits key.pid = true
  · simp only [if_neg hempty, if_pos hadmits, admitting_of_admits hadmits]
    exact accounts_reacting hkeyed hreact
  · simp only [if_neg hempty, if_neg hadmits, admitting_of_not_admits hadmits]
    exact .of_drop .foreign

/-- What a tracker counts and sends of a call is what the check says that it fails. -/
theorem accounts_respond (hkeyed : t.registry.IsKeyed) {s : Step} (hcall : s.byteCount? = some count) :
    Accounts count (t.respond s).tally (Event.chunks (t.respond s).events) (t.drop? s) := by
  cases s with
  | observe o =>
    -- The observation is counted on top of what it does.
    cases o with
    | data o =>
      cases hcall
      have haccounts : Accounts o.byteCount (t.transferred o).tally
          (Event.chunks (t.transferred o).events)
          (t.callDrop? o.byteCount o.key o.startTicks (.data o)) := by
        refine accounts_call hkeyed (fun force c => c.transfer t.config t.control force o) ?_ rfl
        intro c hkey
        rw [← hkey]
        exact c.accounts_data t.config t.control o
      exact haccounts.congr ((Counters.handled_add _ _).trans (Counters.zero_add _))
    | sendfile o =>
      cases hcall
      have haccounts : Accounts o.byteCount (t.fileTransferred o).tally
          (Event.chunks (t.fileTransferred o).events)
          (t.callDrop? o.byteCount o.key o.startTicks (.sendfile o)) := by
        refine accounts_call hkeyed (fun force c => c.transferFile t.config t.control force o) ?_ rfl
        intro c hkey
        rw [← hkey]
        exact c.accounts_sendfile t.config t.control o
      exact haccounts.congr ((Counters.handled_add _ _).trans (Counters.zero_add _))
    | _ => cases hcall
  | _ => cases hcall

/-- There is no plain text of a file. -/
theorem drop?_ne_of_sendfile (o : FileTransfer) :
    t.drop? (.observe (.sendfile o)) ≠ some .tlsMismatch := by
  simp only [drop?, callDrop?]
  split
  · simp
  split
  · split
    · exact Connection.drop?_sendfile_ne _ _ _ o
    · simp
  · simp

variable {config : Config} {control : Control}

/-- At every moment of a run, a call meets exactly one fate: it is dropped for one reason, counted
once, and nothing is sent of it, or all of its bytes are accounted. The checks of the tracker say
which it is, and that of the plain text is not made of a file. -/
theorem accounted_once (h : make config control = .ok t) (steps : List Step) {s : Step}
    (hcall : s.byteCount? = some count) :
    (t.run (steps ++ [s])).counters =
        (t.run steps).counters + ((t.run steps).respond s).tally ∧
      (∃! fate, Accounts count ((t.run steps).respond s).tally
        (Event.chunks ((t.run steps).respond s).events) fate) ∧
      Accounts count ((t.run steps).respond s).tally
        (Event.chunks ((t.run steps).respond s).events) ((t.run steps).drop? s) ∧
      ∀ o, s = .observe (.sendfile o) → (t.run steps).drop? s ≠ some .tlsMismatch := by
  have haccounts := accounts_respond (keyed_run h steps) hcall
  refine ⟨counters_concat t steps s, ⟨_, haccounts, ?_⟩, haccounts, ?_⟩
  · intro fate hfate
    exact hfate.fate_unique haccounts
  · rintro o rfl
    exact drop?_ne_of_sendfile o

end Tracker

namespace Session

/-- The client writes ten bytes, of which seven are staged, in five segments. -/
def gathering (key : ConnectionKey) : Step :=
  .observe (.data
    { requesting key with payload := .segments [[], [1, 2, 3, 4], [], [5, 6], [7]], byteCount := 10 })

end Session

namespace Tracker

/-- A tracker whose chunks hold three bytes, and which walks four segments. -/
def cramped : Tracker :=
  ⟨{ Config.standard with chunkLimits := Connection.tight }, .everything,
    .empty Config.standard.maxConnections Config.standard.capacityPolicy, {}⟩

theorem make_cramped : make cramped.config cramped.control = .ok cramped :=
  rfl

/-- What it answers to that call, after some steps. -/
def gathered (steps : List Step) : Outcome :=
  (cramped.run steps).respond (Session.gathering ⟨7, 3⟩)

/-- Two chunks stand for six bytes and hold five of them, and four bytes are unreported. Once the
client is ordered to be withheld, the same call is held back. -/
theorem accounted_once_gathering :
    make cramped.config cramped.control = .ok cramped ∧
      (Session.gathering ⟨7, 3⟩).byteCount? = some 10 ∧
      Balance 10 (gathered [Session.connect ⟨7, 3⟩, Session.request ⟨7, 3⟩]).tally
        (Event.chunks (gathered [Session.connect ⟨7, 3⟩, Session.request ⟨7, 3⟩]).events) ∧
      (Event.chunks (gathered [Session.connect ⟨7, 3⟩, Session.request ⟨7, 3⟩]).events).map
        DataChunk.piece = [⟨4, [1, 2, 3]⟩, ⟨2, [5, 6]⟩] ∧
      Drop.heldBack.Accounts (gathered [Session.connect ⟨7, 3⟩, .disable ⟨7, 3⟩ 1]).tally
        (Event.chunks (gathered [Session.connect ⟨7, 3⟩, .disable ⟨7, 3⟩ 1]).events) := by
  have hsent := (accounted_once make_cramped [Session.connect ⟨7, 3⟩, Session.request ⟨7, 3⟩]
    (s := Session.gathering ⟨7, 3⟩) rfl).2.2.1
  have hheld := (accounted_once make_cramped [Session.connect ⟨7, 3⟩, .disable ⟨7, 3⟩ 1]
    (s := Session.gathering ⟨7, 3⟩) rfl).2.2.1
  have hnone : (cramped.run [Session.connect ⟨7, 3⟩, Session.request ⟨7, 3⟩]).drop?
      (Session.gathering ⟨7, 3⟩) = none := by decide +kernel
  have hsome : (cramped.run [Session.connect ⟨7, 3⟩, .disable ⟨7, 3⟩ 1]).drop?
      (Session.gathering ⟨7, 3⟩) = some .heldBack := by decide +kernel
  rw [hnone] at hsent
  rw [hsome] at hheld
  have hpieces : (Event.chunks (gathered [Session.connect ⟨7, 3⟩,
      Session.request ⟨7, 3⟩]).events).map DataChunk.piece = [⟨4, [1, 2, 3]⟩, ⟨2, [5, 6]⟩] := by
    decide +kernel
  exact ⟨make_cramped, rfl, hsent, hpieces, hheld⟩

end Tracker

end FlowTrace
