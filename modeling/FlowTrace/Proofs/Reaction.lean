import FlowTrace.Proofs.Encounter

/-!
# Reaction laws — what an incident leaves of a connection

Classification and accounting touch disjoint parts of a connection: `sampled_eq` and `account_eq`
say which, and the field lemmas are read off them. Every incident that is accounted, of a staged payload
or of a file, is one `Movement` of the connection as its sample has left it, so what holds of `move`
holds of both.
-/

namespace FlowTrace

namespace Connection

variable (c : Connection) (config : Config) (control : Control) (force : Bool)

/-! ## Classification -/

/-- Classification changes the carry, the latches and its own counts. -/
theorem classify_eq (e : Classifier) (d : Direction) (sample : Bytes) :
    ∃ protocol role matchCount,
      c.classify e d sample =
        { c with
          carry := (e.infer sample c.carry c.protocol).2
          sampleCount := c.sampleCount + 1
          protocol
          role
          matchCount } := by
  simp only [classify]
  split
  · exact ⟨_, _, _, rfl⟩
  · exact ⟨_, _, _, rfl⟩

theorem sampled_eq (o : Transfer) :
    ∃ carry protocol role matchCount sampleCount,
      c.sampled config o = { c with carry, protocol, role, matchCount, sampleCount } := by
  simp only [sampled]
  split
  · next sample _ =>
    obtain ⟨protocol, role, matchCount, h⟩ :=
      classify_eq { c with carry := c.carry.clearPrepend } ⟨config.enabledProtocols⟩ o.direction
        sample
    exact ⟨_, protocol, role, matchCount, _, h⟩
  · -- Without a sample only the length header is dropped, which is a part of the carry.
    exact ⟨_, _, _, _, _, rfl⟩

section Sampled

variable (o : Transfer)

@[simp] theorem id_sampled : (c.sampled config o).id = c.id := by
  rcases sampled_eq c config o with ⟨_, _, _, _, _, h⟩
  rw [h]

@[simp] theorem address_sampled : (c.sampled config o).address = c.address := by
  rcases sampled_eq c config o with ⟨_, _, _, _, _, h⟩
  rw [h]

@[simp] theorem position_sampled (d : Direction) :
    (c.sampled config o).position d = c.position d := by
  rcases sampled_eq c config o with ⟨_, _, _, _, _, h⟩
  cases d <;> rw [h] <;> rfl

@[simp] theorem isReported_sampled : (c.sampled config o).isReported = c.isReported := by
  rcases sampled_eq c config o with ⟨_, _, _, _, _, h⟩
  rw [h]

@[simp] theorem disabledUpTo_sampled : (c.sampled config o).disabledUpTo = c.disabledUpTo := by
  rcases sampled_eq c config o with ⟨_, _, _, _, _, h⟩
  rw [h]

end Sampled

/-! ## Accounting -/

/-- Accounting changes a byte total, and with a report the marks that the report leaves. -/
theorem account_eq (threshold : Nat) (m : Movement) :
    (c.account threshold m = (c.addBytes m.direction m.byteCount, none)) ∨
      (∃ total, c.account threshold m =
        ({ c.addBytes m.direction m.byteCount with reportedTotal := total, isReported := true },
          some ((c.addBytes m.direction m.byteCount).report m.timestamp false))) := by
  simp only [account]
  split
  · exact Or.inl rfl
  · exact Or.inr ⟨_, rfl⟩

@[simp] theorem id_addBytes (d : Direction) (count : Nat) : (c.addBytes d count).id = c.id := by
  cases d <;> rfl

@[simp] theorem address_addBytes (d : Direction) (count : Nat) :
    (c.addBytes d count).address = c.address := by
  cases d <;> rfl

@[simp] theorem isReported_addBytes (d : Direction) (count : Nat) :
    (c.addBytes d count).isReported = c.isReported := by
  cases d <;> rfl

@[simp] theorem position_addBytes (d d' : Direction) (count : Nat) :
    (c.addBytes d count).position d' =
      if d = d' then saturate (c.position d' + count) else c.position d' := by
  cases d <;> cases d' <;> rfl

@[simp] theorem carry_addBytes (d : Direction) (count : Nat) :
    (c.addBytes d count).carry = c.carry := by
  cases d <;> rfl

@[simp] theorem disabledUpTo_addBytes (d : Direction) (count : Nat) :
    (c.addBytes d count).disabledUpTo = c.disabledUpTo := by
  cases d <;> rfl

section Account

variable (threshold : Nat) (m : Movement)

@[simp] theorem id_account : (c.account threshold m).1.id = c.id := by
  rcases account_eq c threshold m with h | ⟨_, h⟩ <;> rw [h] <;> exact id_addBytes c _ _

@[simp] theorem address_account : (c.account threshold m).1.address = c.address := by
  rcases account_eq c threshold m with h | ⟨_, h⟩ <;> rw [h] <;> exact address_addBytes c _ _

@[simp] theorem position_account (d : Direction) :
    (c.account threshold m).1.position d =
      if m.direction = d then saturate (c.position d + m.byteCount) else c.position d := by
  have hbytes := position_addBytes c m.direction d m.byteCount
  rcases account_eq c threshold m with h | ⟨_, h⟩ <;> rw [h]
  · exact hbytes
  · cases d <;> exact hbytes

@[simp] theorem carry_account : (c.account threshold m).1.carry = c.carry := by
  rcases account_eq c threshold m with h | ⟨_, h⟩ <;> rw [h] <;> exact carry_addBytes c _ _

@[simp] theorem disabledUpTo_account : (c.account threshold m).1.disabledUpTo = c.disabledUpTo := by
  rcases account_eq c threshold m with h | ⟨_, h⟩ <;> rw [h] <;> exact disabledUpTo_addBytes c _ _

@[simp] theorem protocol_account : (c.account threshold m).1.protocol = c.protocol := by
  rcases account_eq c threshold m with h | ⟨_, h⟩ <;> rw [h] <;> cases m.direction <;> rfl

@[simp] theorem role_account : (c.account threshold m).1.role = c.role := by
  rcases account_eq c threshold m with h | ⟨_, h⟩ <;> rw [h] <;> cases m.direction <;> rfl

@[simp] theorem ssl_account : (c.account threshold m).1.ssl = c.ssl := by
  rcases account_eq c threshold m with h | ⟨_, h⟩ <;> rw [h] <;> cases m.direction <;> rfl

/-- A report is the first one of a connection that had none, and marks it from then on. -/
theorem isReported_account :
    (c.account threshold m).1.isReported =
      (c.isReported || (c.account threshold m).2.isSome) := by
  rcases account_eq c threshold m with h | ⟨_, h⟩ <;> rw [h]
  · simp
  · simp

theorem account_report {r : StatsReport} (h : (c.account threshold m).2 = some r) :
    r.id = c.id ∧ r.isClose = false ∧ r.isFirst = !c.isReported := by
  rcases account_eq c threshold m with hnone | ⟨_, hsome⟩
  · rw [hnone] at h
    cases h
  · rw [hsome] at h
    cases h
    exact ⟨id_addBytes c _ _, rfl, congrArg not (isReported_addBytes c _ _)⟩

end Account

end Connection

/-! ## Accounted incidents -/

/-- What a transfer moves, with the header that is to be put in front of it. -/
def Transfer.movement (o : Transfer) (lengthHeader : Option Header) : Movement where
  timestamp := o.timestamp
  operation := o.operation
  direction := o.direction
  byteCount := o.byteCount
  content := .staged o.payload
  lengthHeader := lengthHeader

def FileTransfer.movement (o : FileTransfer) : Movement where
  timestamp := o.timestamp
  operation := .sendfile
  direction := .egress
  byteCount := o.byteCount
  content := .file
  lengthHeader := none

namespace Connection

variable (c : Connection) (config : Config) (control : Control)

/-- Whether a connection takes the bytes of a transfer: its address is reported, and the bytes are
those of its plain text. -/
def takes (c : Connection) (o : Transfer) : Bool :=
  c.address.isTraceable && c.ssl == o.ssl

/-- The movement for which an incident is accounted, and the connection as the classification has
left it. -/
def moving? : Incident → Option (Connection × Movement)
  | .data o =>
    if c.takes o then
      some (c.sampled config o, o.movement (c.sampled config o).carry.lengthHeader)
    else none
  | .sendfile o => if c.address.isTraceable then some (c, o.movement) else none
  | .opened _ | .tlsDetected | .disabled _ | .closed _ => none

variable {c config}

theorem moving?_of_takes {o : Transfer} (h : c.takes o = true) :
    c.moving? config (.data o) =
      some (c.sampled config o, o.movement (c.sampled config o).carry.lengthHeader) := by
  simp [moving?, h]

theorem not_takes_of_moving? {o : Transfer} (h : c.moving? config (.data o) = none) :
    ¬c.takes o = true := by
  intro htakes
  rw [moving?_of_takes htakes] at h
  cases h

theorem not_traceable_of_moving? {o : FileTransfer} (h : c.moving? config (.sendfile o) = none) :
    ¬c.address.isTraceable = true := by
  intro htraceable
  simp [moving?, htraceable] at h

/-- Only a transfer or a file is accounted. -/
theorem moving?_cases {i : Incident} {c' : Connection} {m : Movement}
    (h : c.moving? config i = some (c', m)) :
    (∃ o, i = .data o ∧ c.takes o = true ∧ c' = c.sampled config o ∧
      m = o.movement (c.sampled config o).carry.lengthHeader) ∨
    (∃ o, i = .sendfile o ∧ c.address.isTraceable = true ∧ c' = c ∧ m = o.movement) := by
  cases i with
  | data o =>
    simp only [moving?, Option.ite_none_right_eq_some, Option.some.injEq, Prod.mk.injEq] at h
    rcases h with ⟨htakes, hc, hm⟩
    exact Or.inl ⟨o, rfl, htakes, hc.symm, hm.symm⟩
  | sendfile o =>
    simp only [moving?, Option.ite_none_right_eq_some, Option.some.injEq, Prod.mk.injEq] at h
    rcases h with ⟨htraceable, hc, hm⟩
    exact Or.inr ⟨o, rfl, htraceable, hc.symm, hm.symm⟩
  | opened _ | tlsDetected | disabled _ | closed _ => cases h

/-- An accounted incident is a movement. -/
theorem undergo_of_moving {i : Incident} {c' : Connection} {m : Movement}
    (h : c.moving? config i = some (c', m)) :
    (c.undergo config control i).connection = (c'.account config.statsThreshold m).1 ∧
      (c.undergo config control i).events =
        (c'.move config control (control.forces c.id.key.pid) m).events := by
  rcases moving?_cases h with ⟨o, rfl, htakes, rfl, rfl⟩ | ⟨o, rfl, htraceable, rfl, rfl⟩
  · rcases (Bool.and_eq_true _ _).mp htakes with ⟨htraceable, hssl⟩
    have hsame : (c.ssl != o.ssl) = false := by simpa using hssl
    -- Past both guards the transfer is a movement by definition, and the tally does not matter.
    simp only [undergo, transfer, htraceable, hsame, Bool.not_true, Bool.false_eq_true, if_false]
    exact ⟨rfl, rfl⟩
  · simp only [undergo, transferFile, htraceable, Bool.not_true, Bool.false_eq_true, if_false]
    exact ⟨rfl, rfl⟩

/-- Bytes that are not accounted leave no trace. -/
theorem undergo_data_of_not_takes {o : Transfer} (h : ¬c.takes o = true) :
    (c.undergo config control (.data o)).connection = c ∧
      (c.undergo config control (.data o)).events = [] := by
  simp only [undergo, transfer]
  -- The two guards are tried one after the other, so only past the second one are both refuted.
  split
  · exact ⟨rfl, rfl⟩
  · next htraceable =>
    split
    · exact ⟨rfl, rfl⟩
    · next hssl =>
      have htakes : c.takes o = true := by
        simp only [takes, Bool.and_eq_true, beq_iff_eq]
        exact ⟨by simpa using htraceable, by simpa using hssl⟩
      exact absurd htakes h

theorem undergo_sendfile_of_not_traceable {o : FileTransfer} (h : ¬c.address.isTraceable = true) :
    (c.undergo config control (.sendfile o)).connection = c ∧
      (c.undergo config control (.sendfile o)).events = [] := by
  simp only [undergo, transferFile]
  split
  · exact ⟨rfl, rfl⟩
  · next htraceable => exact absurd (by simpa using htraceable) h

/-- Between the opening and the close, only bytes that are accounted are reported. -/
theorem undergo_silent {i : Incident} (h : c.moving? config i = none)
    (hopening : i.isOpening = false) (hclosing : i.isClosing = false) :
    (c.undergo config control i).events = [] := by
  cases i with
  | data o =>
    exact (undergo_data_of_not_takes control (not_takes_of_moving? h)).2
  | sendfile o =>
    exact (undergo_sendfile_of_not_traceable control (not_traceable_of_moving? h)).2
  | opened o => cases hopening
  | tlsDetected => rfl
  | disabled g => rfl
  | closed timestamp => cases hclosing

/-- What is left of a connection by an incident that is not accounted. -/
theorem undergo_of_not_moving {i : Incident} (h : c.moving? config i = none) :
    (c.undergo config control i).connection = c ∨
      (i = .tlsDetected ∧ (c.undergo config control i).connection = { c with ssl := true }) ∨
      (∃ g, i = .disabled g ∧ (c.undergo config control i).connection = c.disableUpTo g) := by
  cases i with
  | data o =>
    exact Or.inl (undergo_data_of_not_takes control (not_takes_of_moving? h)).1
  | sendfile o =>
    exact Or.inl (undergo_sendfile_of_not_traceable control (not_traceable_of_moving? h)).1
  | opened o => exact Or.inl rfl
  | tlsDetected => exact Or.inr (Or.inl ⟨rfl, rfl⟩)
  | disabled g => exact Or.inr (Or.inr ⟨g, rfl, rfl⟩)
  | closed timestamp => exact Or.inl rfl

/-- What is told of an incident that is not accounted: that the connection was opened or closed, if
anything. -/
theorem events_of_not_moving {i : Incident} (h : c.moving? config i = none) :
    (c.undergo config control i).events = [] ∨
      (∃ opening, opening.id = c.id ∧
        (c.undergo config control i).events = [.opened opening]) ∨
      ∃ closing timestamp, closing.id = c.id ∧
        (c.undergo config control i).events =
          [.closed closing, .stats (c.report timestamp true)] := by
  cases i with
  | opened o =>
    simp only [undergo, announcement]
    split
    · exact Or.inr (Or.inl ⟨_, rfl, rfl⟩)
    · exact Or.inl rfl
  | closed timestamp =>
    simp only [undergo, finish]
    split
    · exact Or.inl rfl
    · exact Or.inr (Or.inr ⟨_, timestamp, rfl, rfl⟩)
  | data _ | sendfile _ | tlsDetected | disabled _ =>
    exact Or.inl (undergo_silent control h rfl rfl)

/-- What is accounted moves on the connection that was met, with new findings about it at most. -/
theorem moving?_frame {i : Incident} {c' : Connection} {m : Movement}
    (h : c.moving? config i = some (c', m)) :
    c'.id = c.id ∧ c'.isReported = c.isReported ∧ c'.disabledUpTo = c.disabledUpTo ∧
      ∀ d, c'.position d = c.position d := by
  rcases moving?_cases h with ⟨o, _, _, rfl, _⟩ | ⟨_, _, _, rfl, _⟩
  · exact ⟨id_sampled c config o, isReported_sampled c config o, disabledUpTo_sampled c config o,
      position_sampled c config o⟩
  · exact ⟨rfl, rfl, rfl, fun d => rfl⟩

@[simp] theorem id_undergo (i : Incident) : (c.undergo config control i).connection.id = c.id := by
  cases hmoving : c.moving? config i with
  | none =>
    rcases undergo_of_not_moving control hmoving with h | ⟨_, h⟩ | ⟨_, _, h⟩ <;> rw [h]
    rfl
  | some p =>
    rcases p with ⟨c', m⟩
    rw [(undergo_of_moving control hmoving).1, id_account]
    exact (moving?_frame hmoving).1

@[simp] theorem address_undergo (i : Incident) :
    (c.undergo config control i).connection.address = c.address := by
  cases hmoving : c.moving? config i with
  | none =>
    rcases undergo_of_not_moving control hmoving with h | ⟨_, h⟩ | ⟨_, _, h⟩ <;> rw [h]
    rfl
  | some p =>
    rcases p with ⟨c', m⟩
    rw [(undergo_of_moving control hmoving).1, address_account]
    rcases moving?_cases hmoving with ⟨o, _, _, rfl, _⟩ | ⟨_, _, _, rfl, _⟩
    · exact address_sampled c config o
    · rfl

/-- Only the sample of a transfer tells anything of the protocol and the role. -/
theorem found_undergo (i : Incident) :
    ((c.undergo config control i).connection.protocol = c.protocol ∧
      (c.undergo config control i).connection.role = c.role) ∨
    ∃ o, (c.undergo config control i).connection.protocol = (c.sampled config o).protocol ∧
      (c.undergo config control i).connection.role = (c.sampled config o).role := by
  cases hmoving : c.moving? config i with
  | none =>
    rcases undergo_of_not_moving control hmoving with hsame | ⟨_, htls⟩ | ⟨_, _, horder⟩
    · exact Or.inl (by simp [hsame])
    · exact Or.inl (by simp [htls])
    · exact Or.inl (by simp [horder, disableUpTo])
  | some p =>
    rcases p with ⟨c', m⟩
    rw [(undergo_of_moving control hmoving).1, protocol_account, role_account]
    rcases moving?_cases hmoving with ⟨o, _, _, rfl, _⟩ | ⟨_, _, _, rfl, _⟩
    · exact Or.inr ⟨o, rfl, rfl⟩
    · exact Or.inl ⟨rfl, rfl⟩

/-- Only an order writes an order. -/
theorem disabledUpTo_undergo {i : Incident} (h : ∀ generation, i ≠ .disabled generation) :
    (c.undergo config control i).connection.disabledUpTo = c.disabledUpTo := by
  cases hmoving : c.moving? config i with
  | some p =>
    rcases p with ⟨c', m⟩
    rw [(undergo_of_moving control hmoving).1, disabledUpTo_account]
    exact (moving?_frame hmoving).2.2.1
  | none =>
    rcases undergo_of_not_moving control hmoving with hsame | ⟨_, htls⟩ | ⟨n, hdisabled, _⟩
    · rw [hsame]
    · rw [htls]
    · exact absurd hdisabled (h n)

end Connection

/-! ## Data -/

namespace Event

/-- The chunks among some events. -/
def chunks (xs : List Event) : List DataChunk :=
  xs.filterMap chunk?

@[simp] theorem chunks_append (xs ys : List Event) : chunks (xs ++ ys) = chunks xs ++ chunks ys :=
  List.filterMap_append

@[simp] theorem chunks_map_data (cs : List DataChunk) : chunks (cs.map .data) = cs := by
  induction cs with
  | nil => rfl
  | cons chunk cs ih => exact congrArg (chunk :: ·) ih

@[simp] theorem chunks_map_stats (rs : List StatsReport) : chunks (rs.map .stats) = [] := by
  induction rs with
  | nil => rfl
  | cons r rs ih => exact ih

end Event

namespace Connection

variable {c : Connection} {config : Config} (control : Control)

/-- A chunk shows the connection as it is cut. -/
theorem shown_of_mem_chunks {m : Movement} {position : Nat} {header : Option Header}
    {pieces : List Piece} {chunk : DataChunk} (h : chunk ∈ c.chunks m position header pieces) :
    chunk.id = c.id ∧ chunk.protocol = c.protocol ∧ chunk.role = c.role ∧ chunk.ssl = c.ssl := by
  induction pieces generalizing position header with
  | nil => cases h
  | cons p ps ih =>
    rcases List.mem_cons.1 h with rfl | hmem
    · exact ⟨rfl, rfl, rfl, rfl⟩
    · exact ih hmem

theorem chunks_ne_nil {m : Movement} {position : Nat} {header : Option Header}
    {pieces : List Piece} (h : pieces ≠ []) : c.chunks m position header pieces ≠ [] := by
  cases pieces with
  | nil => exact absurd rfl h
  | cons p ps => exact List.cons_ne_nil _ _

theorem forward_of_sends {limits : ChunkLimits} {force : Bool} {m : Movement}
    (h : control.sends force c = true) :
    (c.forward limits control force m).1 =
      c.chunks m (c.position m.direction) m.lengthHeader (m.pieces limits) := by
  simp [forward, h]

theorem forward_of_not_sends {limits : ChunkLimits} {force : Bool} {m : Movement}
    (h : ¬control.sends force c = true) : (c.forward limits control force m).1 = [] := by
  simp [forward, h]

theorem id_of_mem_forward {limits : ChunkLimits} {force : Bool} {m : Movement} {chunk : DataChunk}
    (h : chunk ∈ (c.forward limits control force m).1) : chunk.id = c.id := by
  by_cases hsends : control.sends force c = true
  · rw [forward_of_sends control hsends] at h
    exact (shown_of_mem_chunks h).1
  · rw [forward_of_not_sends control hsends] at h
    cases h

/-- The chunks of an accounted incident are those of its movement. -/
theorem chunks_of_moving {i : Incident} {c' : Connection} {m : Movement}
    (h : c.moving? config i = some (c', m)) :
    Event.chunks (c.undergo config control i).events =
      (c'.forward config.chunkLimits control (control.forces c.id.key.pid) m).1 := by
  rw [(undergo_of_moving control h).2]
  simp [move]

/-- Data is forwarded of accounted incidents only. -/
theorem chunks_of_not_moving {i : Incident} (h : c.moving? config i = none) :
    Event.chunks (c.undergo config control i).events = [] := by
  rcases events_of_not_moving control h with hevents | ⟨_, _, hevents⟩ | ⟨_, _, _, hevents⟩ <;>
    rw [hevents] <;> rfl

theorem id_of_mem_chunks_undergo {i : Incident} {chunk : DataChunk}
    (h : chunk ∈ Event.chunks (c.undergo config control i).events) : chunk.id = c.id := by
  cases hmoving : c.moving? config i with
  | none =>
    rw [chunks_of_not_moving control hmoving] at h
    cases h
  | some p =>
    rcases p with ⟨c', m⟩
    rw [chunks_of_moving control hmoving] at h
    rw [id_of_mem_forward control h, (moving?_frame hmoving).1]

end Connection

end FlowTrace
