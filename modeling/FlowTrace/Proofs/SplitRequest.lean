import FlowTrace.Proofs.Reattachment
import FlowTrace.Proofs.Silence

/-!
# Split requests — one message, read in one call or in two

Brokers often read the size of a Kafka request with one call and the request itself with the next.
Nothing is recognised in the size alone, so it is not forwarded, but the carry remembers it. With it
the rest is recognised as one message, and the size is put in front of its first chunk. The reader of
the events gets the same bytes as if the request had been read at once, and the connection is left the
same but for the number of samples.

`splitRequest_rebuilt` follows a request through both ways, from the same moment of a run on.
-/

namespace FlowTrace

/-! ## What is recognised -/

namespace Kafka

variable {b : Bytes}

/-- A request in one payload begins with its size, and a well-formed header follows. -/
theorem of_request (h : (classify b .empty).messageType = .request) :
    12 ≤ b.length ∧ Bytes.signed32 (Bytes.bigEndian (b.take 4)) = ((b.drop 4).length : Int) ∧
      (RequestHeader.read? (b.drop 4)).any RequestHeader.wellFormed = true := by
  have hcarry : Carry.empty.announcesBE b.length = false := rfl
  unfold classify at h
  split at h
  · next hmessage =>
    simp only [body?, hcarry, Bool.false_eq_true, if_false] at hmessage
    split at hmessage
    · next hsize =>
      rcases (Option.any_eq_true _ _).1 hsize with ⟨size, hread, hlength⟩
      rcases (Option.any_eq_true _ _).1 hmessage with ⟨header, hheader, _⟩
      have hlong : 8 ≤ (b.drop 4).length := RequestHeader.le_length hheader
      have hsum : size + 4 = (b.length : Int) := by simpa using hlength
      have hfield : size = Bytes.signed32 (Bytes.bigEndian (b.take 4)) := by
        simp only [Bytes.int32?, Bytes.word32?, Option.map_eq_some_iff] at hread
        rcases hread with ⟨_, ⟨field, hfield, rfl⟩, rfl⟩
        rw [← (Bytes.field?_eq_some_iff.1 hfield).1, List.drop_zero]
      rw [List.length_drop] at hlong
      refine ⟨by omega, ?_, hmessage⟩
      rw [← hfield, List.length_drop]
      omega
    · cases hmessage
  · cases h

theorem classify_whole (h : (classify b .empty).messageType = .request) :
    classify b .empty = ⟨.request, false⟩ := by
  unfold classify at h ⊢
  split at h
  · next hmessage =>
    rw [if_pos hmessage]
    rfl
  · cases h

/-- The size alone is no message. -/
theorem classify_size (b : Bytes) : classify (b.take 4) .empty = ⟨.unknown, false⟩ := by
  have hcarry : Carry.empty.announcesBE (b.take 4).length = false := rfl
  have hshort : RequestHeader.read? ((b.take 4).drop 4) = none := by
    cases hread : RequestHeader.read? ((b.take 4).drop 4) with
    | none => rfl
    | some header =>
      have hlong := RequestHeader.le_length hread
      rw [List.length_drop, List.length_take] at hlong
      omega
  have hnone : (body? (b.take 4) .empty).bind RequestHeader.read? = none := by
    simp only [body?, hcarry, Bool.false_eq_true, if_false]
    split
    · exact hshort
    · rfl
  simp [classify, hnone]

/-- After the size, the rest is a message. -/
theorem classify_rest (h : (classify b .empty).messageType = .request) {carry : Carry}
    (hlast : carry.lastLength = 4) (hheader : carry.header.toBytes = b.take 4) :
    classify (b.drop 4) carry = ⟨.request, true⟩ := by
  rcases of_request h with ⟨_, hsize, hmessage⟩
  have hcarry : carry.announcesBE (b.drop 4).length = true := by
    simp [Carry.announcesBE, hlast, hheader, hsize]
  have hbody : body? (b.drop 4) carry = some (b.drop 4) := if_pos hcarry
  have hread : ((body? (b.drop 4) carry).bind RequestHeader.read?).any
      RequestHeader.wellFormed = true := by
    simpa only [hbody, Option.bind_some] using hmessage
  rw [classify, if_pos hread, hcarry]

end Kafka

namespace Classifier

variable {e : Classifier} {b : Bytes} {carry : Carry}

/-- If no other signature is enabled, that of Kafka decides alone. -/
theorem scan_of_kafka (h : e.enabled.toList = [.kafka]) (b : Bytes) (carry : Carry) :
    e.scan b carry =
      (((Kafka.classify b carry).messageType.known?).map (Verdict.mk .kafka)).getD .unknown := by
  have hcontains : ∀ p, e.enabled.contains p = (p == .kafka) := by
    intro p
    have hmem : p ∈ e.enabled.toList ↔ p = .kafka := by simp [h]
    rw [ProtocolSet.toList, List.mem_filter] at hmem
    have hiff : e.enabled.contains p = true ↔ p = .kafka := by
      simpa [Protocol.mem_all] using hmem
    cases hp : p == .kafka with
    | true => exact hiff.2 (by simpa using hp)
    | false =>
      cases hfound : e.enabled.contains p with
      | false => rfl
      | true => simp [hiff.1 hfound] at hp
  have hfilter : Protocol.precedence.filter e.enabled.contains = [.kafka] := by
    simp only [funext hcontains]
    rfl
  simp [scan, hfilter, Protocol.recognise?]

/-- Nothing is recognised in the size alone, but it is remembered. -/
theorem infer_size (h : e.enabled.toList = [.kafka]) {header : Header}
    (hheader : header.toBytes = b.take 4) :
    e.infer (b.take 4) .empty .unknown = (.unknown, ⟨4, header, false⟩) := by
  have hscan : e.scan (b.take 4) .empty = .unknown := by
    rw [scan_of_kafka h, Kafka.classify_size]
    rfl
  have hfour : Header.ofBytes? (b.take 4) = some header :=
    Header.ofBytes?_eq_some_iff.2 hheader.symm
  have hlength : (b.take 4).length = 4 := by
    rw [← hheader]
    rfl
  simp [infer, hscan, Carry.record, hfour, hlength, Verdict.unknown]

/-- The rest is recognised by the size that is remembered, and calls for it to be handed on. -/
theorem infer_rest (h : e.enabled.toList = [.kafka])
    (hrequest : (Kafka.classify b .empty).messageType = .request) {header : Header}
    (hheader : header.toBytes = b.take 4) :
    e.infer (b.drop 4) ⟨4, header, false⟩ .unknown =
      (⟨.kafka, .request⟩, ⟨(b.drop 4).length, header, true⟩) := by
  have hclassify : Kafka.classify (b.drop 4) ⟨4, header, false⟩ = ⟨.request, true⟩ :=
    Kafka.classify_rest hrequest rfl hheader
  have hscan : e.scan (b.drop 4) ⟨4, header, false⟩ = ⟨.kafka, .request⟩ := by
    rw [scan_of_kafka h, hclassify]
    rfl
  -- The rest is too long to be remembered as a size itself.
  have hnone : Header.ofBytes? (b.drop 4) = none := by
    have hlong := (Kafka.of_request hrequest).1
    exact Header.ofBytes?_eq_none (by rw [List.length_drop]; omega)
  simp [infer, hscan, hclassify, Carry.record, hnone]

/-- In one payload, the request is recognised without the carry. -/
theorem infer_whole (h : e.enabled.toList = [.kafka])
    (hrequest : (Kafka.classify b .empty).messageType = .request) :
    ∃ carry, e.infer b .empty .unknown = (⟨.kafka, .request⟩, carry) ∧
      carry.lengthHeader = none := by
  have hclassify := Kafka.classify_whole hrequest
  have hscan : e.scan b .empty = ⟨.kafka, .request⟩ := by
    rw [scan_of_kafka h, hclassify]
    rfl
  refine ⟨{ Carry.empty.record b with prepend := false }, ?_, rfl⟩
  simp [infer, hscan, hclassify]

end Classifier

/-! ## What is put together again -/

/-- The pieces of a buffer hold its bytes, as far as they fit. -/
theorem Piece.flatMap_payload_ofFlat (maxSize count remaining : Nat) (staged : Bytes) :
    (ofFlat maxSize count remaining staged).flatMap (·.payload) =
      staged.take (min remaining (maxSize * count)) := by
  induction count generalizing remaining staged with
  | zero => simp [ofFlat]
  | succ count ih =>
    simp only [ofFlat]
    by_cases hlast : maxSize < remaining ∧ count ≠ 0
    · -- A full piece, and the others hold what fits of the rest.
      have hsplit : min remaining (maxSize * (count + 1)) =
          maxSize + min (remaining - maxSize) (maxSize * count) := by
        rw [Nat.mul_succ]
        omega
      rw [if_pos hlast]
      by_cases hzero : maxSize = 0
      · simp [hzero]
      · rw [if_neg hzero, List.flatMap_cons, ih, Nat.min_self, hsplit, List.take_add]
    · rw [if_neg hlast]
      by_cases hzero : remaining = 0
      · simp [hzero]
      · have hfits : min remaining (maxSize * (count + 1)) = min remaining maxSize := by
          by_cases hone : count = 0
          · simp [hone]
          · have hle : remaining ≤ maxSize := Nat.not_lt.1 fun hlt => hlast ⟨hlt, hone⟩
            rw [Nat.mul_succ]
            omega
        rw [if_neg hzero, List.flatMap_cons, ih, Nat.sub_self, hfits]
        simp

namespace Transfer

/-- The call moves exactly the bytes that are staged for it, in one buffer. -/
def delivering (o : Transfer) (b : Bytes) : Transfer :=
  { o with payload := .flat b, byteCount := b.length }

end Transfer

/-- Some bytes are delivered by a call, all of them staged. -/
def Step.delivery (o : Transfer) (b : Bytes) : Step :=
  .observe (.data (o.delivering b))

namespace Connection

variable {c : Connection} {config : Config} {control : Control} {o : Transfer} {b : Bytes}

theorem flatMap_payload_chunks (c : Connection) (m : Movement) (position : Nat)
    (header? : Option Header) (pieces : List Piece) :
    (c.chunks m position header? pieces).flatMap (·.payload) = pieces.flatMap (·.payload) := by
  induction pieces generalizing position header? with
  | nil => rfl
  | cons p ps ih => simp [chunks, ih]

/-- The role that a connection has once a request went a way. -/
def requestRole (c : Connection) (d : Direction) : Role :=
  if c.role.isResolved then c.role else Role.ofTraffic d .request

theorem sample?_delivering (o : Transfer) (b : Bytes) (limits : ChunkLimits) :
    (o.delivering b).payload.sample? limits (o.delivering b).byteCount = some b := by
  simp [Transfer.delivering, Payload.sample?]

/-- What is left of a connection by bytes in which nothing is recognised. -/
theorem sampled_of_unknown {carry : Carry}
    (hinfer : Classifier.infer ⟨config.enabledProtocols⟩ b c.carry c.protocol = (.unknown, carry)) :
    c.sampled config (o.delivering b) = { c with carry, sampleCount := c.sampleCount + 1 } := by
  rw [← Classifier.infer_clearPrepend] at hinfer
  rw [sampled_of_sample (sample?_delivering o b config.chunkLimits)]
  simp [classify, hinfer, Verdict.unknown, Protocol.isKnown]

/-- What is left of a connection by its first request. -/
theorem sampled_of_request {carry : Carry} (hunknown : c.protocol = .unknown)
    (hinfer : Classifier.infer ⟨config.enabledProtocols⟩ b c.carry .unknown =
      (⟨.kafka, .request⟩, carry)) :
    c.sampled config (o.delivering b) =
      { c with
        carry
        protocol := .kafka
        role := c.requestRole o.direction
        matchCount := c.matchCount + 1
        sampleCount := c.sampleCount + 1 } := by
  rw [← Classifier.infer_clearPrepend] at hinfer
  rw [sampled_of_sample (sample?_delivering o b config.chunkLimits)]
  simp [classify, hinfer, hunknown, Protocol.isKnown, requestRole, Transfer.delivering]

/-! ## One delivery -/

section Account

variable (threshold : Nat) (m : Movement)

@[simp] theorem matchCount_account : (c.account threshold m).1.matchCount = c.matchCount := by
  rcases account_eq c threshold m with h | ⟨_, h⟩ <;> rw [h] <;> cases m.direction <;> rfl

@[simp] theorem sampleCount_account : (c.account threshold m).1.sampleCount = c.sampleCount := by
  rcases account_eq c threshold m with h | ⟨_, h⟩ <;> rw [h] <;> cases m.direction <;> rfl

end Account

end Connection

/-- The requests of a connection are forwarded by the masks: its process is neither the target nor the
monitoring one, no order covers it, and Kafka is traced for the role that a request tells. -/
structure Control.TracesRequests (control : Control) (c : Connection) (d : Direction) : Prop where
  unforced : control.target.force? c.id.key.pid = some false
  foreign : control.selfPid ≠ some c.id.key.pid
  enabled : c.isDisabled = false
  allowed : (control.masks .kafka).allows (c.requestRole d) = true

namespace Connection

variable {c : Connection} {config : Config} {control : Control} {o : Transfer} {b : Bytes}

/-- Of bytes in which nothing is recognised, nothing is forwarded. -/
theorem chunks_of_unknown (htraced : control.TracesRequests c o.direction)
    (hunknown : c.protocol = .unknown) (htakes : c.takes o = true) {carry : Carry}
    (hinfer : Classifier.infer ⟨config.enabledProtocols⟩ b c.carry .unknown = (.unknown, carry)) :
    Event.chunks (c.undergo config control (.data (o.delivering b))).events = [] := by
  have hmoving : c.moving? config (.data (o.delivering b)) = some _ := moving?_of_takes htakes
  have hforce : control.forces c.id.key.pid = false := Control.forces_of_force? htraced.unforced
  rw [chunks_of_moving control hmoving]
  apply forward_of_not_sends
  rw [sampled_of_unknown (hunknown ▸ hinfer), hforce]
  simp [Control.sends, hunknown, Protocol.isKnown]

/-- A request that fits into the chunks is forwarded whole. -/
theorem chunks_of_request (htraced : control.TracesRequests c o.direction)
    (hunknown : c.protocol = .unknown) (htakes : c.takes o = true) {carry : Carry}
    (hinfer : Classifier.infer ⟨config.enabledProtocols⟩ b c.carry .unknown =
      (⟨.kafka, .request⟩, carry))
    (hne : b ≠ []) (hfits : b.length ≤ config.chunkLimits.maxChunkSize * config.chunkLimits.maxChunks) :
    ∃ x others, Event.chunks (c.undergo config control (.data (o.delivering b))).events =
        x :: others ∧
      x.position = c.position o.direction ∧ x.lengthHeader = carry.lengthHeader ∧
      (∀ y ∈ others, y.lengthHeader = none) ∧ (x :: others).flatMap (·.payload) = b := by
  have hmoving : c.moving? config (.data (o.delivering b)) = some _ := moving?_of_takes htakes
  have hsampled := sampled_of_request (o := o) hunknown hinfer
  have hsends : control.sends (control.forces c.id.key.pid)
      (c.sampled config (o.delivering b)) = true := by
    have hlive : (c.sampled config (o.delivering b)).isDisabled = false := by
      simpa [isDisabled] using htraced.enabled
    have hforeign : (control.selfPid != some c.id.key.pid) = true := by
      simpa using htraced.foreign
    simp only [Control.sends, hlive]
    simp [hsampled, hforeign, htraced.allowed, Protocol.isKnown]
  have hpieces : (Piece.ofFlat config.chunkLimits.maxChunkSize config.chunkLimits.maxChunks b.length
      b).flatMap (·.payload) = b := by
    rw [Piece.flatMap_payload_ofFlat, Nat.min_eq_left hfits, List.take_length]
  have hsome : Piece.ofFlat config.chunkLimits.maxChunkSize config.chunkLimits.maxChunks b.length
      b ≠ [] := by
    intro hnil
    rw [hnil] at hpieces
    exact hne hpieces.symm
  rw [chunks_of_moving control hmoving, forward_of_sends control hsends]
  rcases exists_chunks_cons (c.sampled config (o.delivering b))
      ((o.delivering b).movement (c.sampled config (o.delivering b)).carry.lengthHeader)
      (c.position o.direction) (c.sampled config (o.delivering b)).carry.lengthHeader hsome with
    ⟨x, others, hchunks, hposition, hheader, hnone⟩
  refine ⟨x, others, ?_, hposition, ?_, hnone, ?_⟩
  · rw [position_sampled]
    exact hchunks
  · rw [hheader, hsampled]
  · rw [← hchunks, flatMap_payload_chunks, hpieces]

/-- What a connection shows once a request was delivered. -/
theorem shown_of_request (control : Control) (hunknown : c.protocol = .unknown)
    (htakes : c.takes o = true) {carry : Carry}
    (hinfer : Classifier.infer ⟨config.enabledProtocols⟩ b c.carry .unknown =
      (⟨.kafka, .request⟩, carry)) :
    let after := (c.undergo config control (.data (o.delivering b))).connection
    after.protocol = .kafka ∧ after.role = c.requestRole o.direction ∧
      after.matchCount = c.matchCount + 1 ∧ after.sampleCount = c.sampleCount + 1 ∧
      ∀ d, after.position d =
        if o.direction = d then saturate (c.position d + b.length) else c.position d := by
  have hmoving : c.moving? config (.data (o.delivering b)) = some _ := moving?_of_takes htakes
  rw [(undergo_of_moving control hmoving).1]
  have hsampled := sampled_of_request (o := o) hunknown hinfer
  refine ⟨?_, ?_, ?_, ?_, ?_⟩
  · rw [protocol_account, hsampled]
  · rw [role_account, hsampled]
  · rw [matchCount_account, hsampled]
  · rw [sampleCount_account, hsampled]
  · intro d
    rw [position_account, position_sampled]
    rfl

/-- A connection of which nothing more is known than before, but that remembers some bytes. -/
structure Remembers (c c' : Connection) (carry : Carry) (d : Direction) (count : Nat) : Prop where
  id_eq : c'.id = c.id
  address_eq : c'.address = c.address
  ssl_eq : c'.ssl = c.ssl
  disabledUpTo_eq : c'.disabledUpTo = c.disabledUpTo
  protocol_eq : c'.protocol = c.protocol
  role_eq : c'.role = c.role
  carry_eq : c'.carry = carry
  matchCount_eq : c'.matchCount = c.matchCount
  sampleCount_eq : c'.sampleCount = c.sampleCount + 1
  position_eq : ∀ d', c'.position d' =
    if d = d' then saturate (c.position d' + count) else c.position d'

/-- Bytes in which nothing is recognised are remembered. -/
theorem remembers_of_unknown (control : Control) (hunknown : c.protocol = .unknown)
    (htakes : c.takes o = true) {carry : Carry}
    (hinfer : Classifier.infer ⟨config.enabledProtocols⟩ b c.carry .unknown = (.unknown, carry)) :
    c.Remembers (c.undergo config control (.data (o.delivering b))).connection carry o.direction
      b.length := by
  have hmoving : c.moving? config (.data (o.delivering b)) = some _ := moving?_of_takes htakes
  rw [(undergo_of_moving control hmoving).1]
  have hsampled := sampled_of_unknown (o := o) (hunknown ▸ hinfer)
  constructor
  case position_eq =>
    intro d
    rw [position_account, position_sampled]
    rfl
  all_goals simp [hsampled]

namespace Remembers

variable {c' : Connection} {carry : Carry} {d : Direction} {count : Nat}

theorem takes_iff (h : c.Remembers c' carry d count) {o' : Transfer} (hssl : o'.ssl = o.ssl) :
    c'.takes o' = c.takes o := by
  simp [takes, h.address_eq, h.ssl_eq, hssl]

theorem tracesRequests (h : c.Remembers c' carry d count) (htraced : control.TracesRequests c d) :
    control.TracesRequests c' d := by
  rcases htraced with ⟨hunforced, hforeign, henabled, hallowed⟩
  refine ⟨h.id_eq ▸ hunforced, h.id_eq ▸ hforeign, ?_, ?_⟩
  · simpa only [isDisabled, h.id_eq, h.disabledUpTo_eq] using henabled
  · simpa only [requestRole, h.role_eq] using hallowed

end Remembers

/-! ## Both ways -/

/-- What a connection on which nothing had moved shows once it was found to have read or written one
request, by some samples. -/
structure HasTaken (c c' : Connection) (d : Direction) (count samples : Nat) : Prop where
  protocol_eq : c'.protocol = .kafka
  role_eq : c'.role = c.requestRole d
  matchCount_eq : c'.matchCount = 1
  sampleCount_eq : c'.sampleCount = samples
  position_eq : ∀ d', c'.position d' = if d = d' then saturate count else 0

section Ways

variable {request : Bytes} {first second : Transfer}
variable (hkafka : config.enabledProtocols.toList = [.kafka])
variable (hrequest : (Kafka.classify request .empty).messageType = .request)
variable (hfits : request.length ≤ config.chunkLimits.maxChunkSize * config.chunkLimits.maxChunks)

/-- The classifier starts afresh on a connection of which nothing has become. -/
theorem IsBare.fresh {role : Role} (h : c.IsBare role) :
    c.protocol = .unknown ∧ c.carry = .empty ∧ c.matchCount = 0 ∧ c.sampleCount = 0 ∧
      ∀ d, c.position d = 0 := by
  rw [h]
  refine ⟨rfl, rfl, rfl, rfl, ?_⟩
  intro d
  cases d <;> rfl

include hkafka hrequest hfits

/-- Delivered at once, a request needs no header. -/
theorem IsBare.whole (hbare : c.IsBare c.role) (htakes : c.takes first = true)
    (htraced : control.TracesRequests c first.direction) :
    let single := c.undergo config control (.data (first.delivering request))
    (Event.chunks single.events).flatMap (·.payload) = request ∧
      (∀ y ∈ Event.chunks single.events, y.lengthHeader = none) ∧
      c.HasTaken single.connection first.direction request.length 1 := by
  intro single
  have hne : request ≠ [] := by
    have hlong := (Kafka.of_request hrequest).1
    rw [← List.length_pos_iff]
    omega
  rcases hbare.fresh with ⟨hunknown, hcarry, hmatches, hsamples, hstart⟩
  rcases Classifier.infer_whole (e := ⟨config.enabledProtocols⟩) hkafka hrequest with
    ⟨carry, hinfer, hplain⟩
  rw [← hcarry] at hinfer
  rcases chunks_of_request htraced hunknown htakes hinfer hne hfits with
    ⟨x, others, hchunks, -, hheader, hnone, hpayload⟩
  rcases shown_of_request control hunknown htakes hinfer with
    ⟨hprotocol, hrole, hmatched, hsampled, hmoved⟩
  refine ⟨by rw [hchunks, hpayload], ?_, hprotocol, hrole, by rw [hmatched, hmatches],
    by rw [hsampled, hsamples], ?_⟩
  · rw [hchunks]
    intro y hy
    rcases List.mem_cons.1 hy with rfl | hy
    · exact hheader.trans hplain
    · exact hnone y hy
  · intro d
    rw [hmoved d, hstart d, Nat.zero_add]

/-- Delivered in two calls, a request is put together again. -/
theorem IsBare.split (hbare : c.IsBare c.role) (hdirection : second.direction = first.direction)
    (hssl : second.ssl = first.ssl) (htakes : c.takes first = true)
    (htraced : control.TracesRequests c first.direction) :
    let sized := c.undergo config control (.data (first.delivering (request.take 4)))
    let split := sized.connection.undergo config control
      (.data (second.delivering (request.drop 4)))
    ∃ header x others, header.toBytes = request.take 4 ∧
      Event.chunks sized.events = [] ∧ Event.chunks split.events = x :: others ∧
      x.lengthHeader = some header ∧ x.position = 4 ∧ (∀ y ∈ others, y.lengthHeader = none) ∧
      header.toBytes ++ (x :: others).flatMap (·.payload) = request ∧
      c.HasTaken split.connection first.direction request.length 2 := by
  intro sized split
  have hlong := (Kafka.of_request hrequest).1
  have hfour : (request.take 4).length = 4 := by
    rw [List.length_take]
    omega
  have hrest : (request.drop 4).length = request.length - 4 := List.length_drop
  have hne : request.drop 4 ≠ [] := by
    rw [← List.length_pos_iff]
    omega
  rcases Header.exists_ofBytes? hfour with ⟨header, hheader⟩
  have hheader : header.toBytes = request.take 4 := (Header.ofBytes?_eq_some_iff.1 hheader).symm
  rcases hbare.fresh with ⟨hunknown, hcarry, hmatches, hsamples, hstart⟩
  -- The size is remembered, and with it the rest is a request.
  have hinferSize := Classifier.infer_size (e := ⟨config.enabledProtocols⟩) hkafka hheader
  rw [← hcarry] at hinferSize
  have hsized : c.Remembers sized.connection ⟨4, header, false⟩ first.direction
      (request.take 4).length :=
    remembers_of_unknown control hunknown htakes hinferSize
  have hunknown' : sized.connection.protocol = .unknown := hsized.protocol_eq.trans hunknown
  have htakes' : sized.connection.takes second = true := (hsized.takes_iff hssl).trans htakes
  have hinferRest := Classifier.infer_rest (e := ⟨config.enabledProtocols⟩) hkafka hrequest hheader
  rw [← hsized.carry_eq] at hinferRest
  rcases chunks_of_request (hdirection ▸ hsized.tracesRequests htraced) hunknown' htakes' hinferRest
      hne (by omega) with ⟨x, others, hchunks, hposition, hxheader, hnone, hpayload⟩
  rcases shown_of_request control hunknown' htakes' hinferRest with
    ⟨hprotocol, hrole, hmatched, hsampled, hmoved⟩
  refine ⟨header, x, others, hheader, chunks_of_unknown htraced hunknown htakes hinferSize, hchunks,
    hxheader, ?_, hnone, ?_, hprotocol, ?_, ?_, ?_, ?_⟩
  · rw [hposition, hdirection, hsized.position_eq, if_pos rfl, hstart, hfour]
    rfl
  · rw [hpayload, hheader, List.take_append_drop]
  · rw [hrole, requestRole, hsized.role_eq, hdirection]
    rfl
  · rw [hmatched, hsized.matchCount_eq, hmatches]
  · rw [hsampled, hsized.sampleCount_eq, hsamples]
  · intro d
    rw [hmoved d, hsized.position_eq d, hdirection, hfour, hrest, hstart]
    split
    · -- The size and the rest add up to the whole.
      rw [saturate_add]
      congr 1
      omega
    · rfl

end Ways

end Connection

namespace Tracker

variable {t : Tracker} {c : Connection} {o : Transfer} {b : Bytes}

theorem key_of_seenOn? (hkeyed : t.registry.IsKeyed) {key : ConnectionKey} {startTicks : UInt64}
    (hseen : t.seenOn? key startTicks = some c) : c.id.key = key := by
  rw [← map_connection_sighting? key startTicks .tlsDetected] at hseen
  rcases Option.map_eq_some_iff.1 hseen with ⟨e, hsighting, rfl⟩
  exact key_of_sighting? hkeyed hsighting

/-- A delivery befalls the connection that the call is seen on. -/
theorem respond_delivery (hkeyed : t.registry.IsKeyed)
    (hseen : t.seenOn? o.key o.startTicks = some c) (hadmits : t.admits o.key.pid = true)
    (hne : b ≠ []) :
    (t.respond (.delivery o b)).events =
        (c.undergo t.config t.control (.data (o.delivering b))).events ∧
      (t.next (.delivery o b)).registry.find? o.key =
        some (c.undergo t.config t.control (.data (o.delivering b))).connection := by
  rw [← map_connection_sighting? o.key o.startTicks (.data (o.delivering b))] at hseen
  rcases Option.map_eq_some_iff.1 hseen with ⟨e, hsighting, rfl⟩
  have hmoved : (o.delivering b).byteCount ≠ 0 ∧ t.admits (o.delivering b).key.pid = true :=
    ⟨fun hzero => hne (List.length_eq_zero_iff.1 hzero), hadmits⟩
  have hencounter : t.encounter? (.delivery o b) = some e := by
    simp only [Step.delivery, encounter?, if_pos hmoved]
    exact hsighting
  have hincident : e.incident = .data (o.delivering b) := incident_of_sighting? hsighting
  have hkey : e.key = o.key := key_of_sighting? hkeyed hsighting
  have hmeets : t.Meets e (t.respond (.delivery o b)) := by
    have hanswers := answers_respond hkeyed (.delivery o b)
    rwa [hencounter] at hanswers
  rw [← hincident]
  refine ⟨hmeets.events_eq, ?_⟩
  have hafter : e.after? t.config t.control = some (e.reaction t.config t.control).connection :=
    Encounter.after?_of_not_closing (by simp [hincident, Incident.isClosing])
  rw [registry_next, ← hkey, hmeets.find?_key, hafter]
  rfl

variable {config : Config} {control : Control}

/-- The same in a run, under its configuration. -/
theorem delivery_run (h : make config control = .ok t) {steps : List Step}
    (hseen : (t.run steps).seenOn? o.key o.startTicks = some c)
    (hunforced : control.target.force? c.id.key.pid = some false) (hne : b ≠ []) :
    ((t.run steps).respond (.delivery o b)).events =
        (c.undergo config control (.data (o.delivering b))).events ∧
      (t.run (steps ++ [.delivery o b])).registry.find? o.key =
        some (c.undergo config control (.data (o.delivering b))).connection := by
  have hmade := (make_eq_ok h).1
  have hconfig : (t.run steps).config = config := by simp [hmade]
  have hcontrol : (t.run steps).control = control := by simp [hmade]
  have hadmits : (t.run steps).admits o.key.pid = true := by
    rw [admits, hcontrol, ← key_of_seenOn? (keyed_run h steps) hseen, hunforced]
    rfl
  have hdelivery := respond_delivery (keyed_run h steps) hseen hadmits hne
  rw [hconfig, hcontrol] at hdelivery
  rwa [run_append]

/-- From any moment of a run on, a request that is delivered in two calls, its size and the rest, to a
connection on which nothing has moved, is put together again by the first chunk of the second call.
Delivered at once it is forwarded without a header, and the connection is left the same but for the
number of samples. -/
theorem splitRequest_rebuilt (h : make config control = .ok t)
    (hkafka : config.enabledProtocols.toList = [.kafka]) (steps : List Step) {request : Bytes}
    (hrequest : (Kafka.classify request .empty).messageType = .request)
    (hfits : request.length ≤ config.chunkLimits.maxChunkSize * config.chunkLimits.maxChunks)
    (first second : Transfer)
    (hsame : second.key = first.key ∧ second.direction = first.direction ∧ second.ssl = first.ssl)
    (hseen : (t.run steps).seenOn? first.key first.startTicks = some c) (hbare : c.IsBare c.role)
    (htakes : c.takes first = true) (htraced : control.TracesRequests c first.direction) :
    let size := Step.delivery first (request.take 4)
    let rest := Step.delivery second (request.drop 4)
    let whole := Step.delivery first request
    ∃ header x others split single,
      Event.chunks ((t.run steps).respond size).events = [] ∧
      Event.chunks ((t.run (steps ++ [size])).respond rest).events = x :: others ∧
      header.toBytes = request.take 4 ∧ x.lengthHeader = some header ∧ x.position = 4 ∧
      (∀ y ∈ others, y.lengthHeader = none) ∧
      header.toBytes ++ (x :: others).flatMap (·.payload) = request ∧
      (Event.chunks ((t.run steps).respond whole).events).flatMap (·.payload) = request ∧
      (∀ y ∈ Event.chunks ((t.run steps).respond whole).events, y.lengthHeader = none) ∧
      (t.run (steps ++ [size, rest])).connection? first.key = some split ∧
      (t.run (steps ++ [whole])).connection? first.key = some single ∧
      split.protocol = .kafka ∧ single.protocol = .kafka ∧ split.role = single.role ∧
      split.written = single.written ∧ split.received = single.received ∧
      split.matchCount = single.matchCount ∧ split.sampleCount = 2 ∧ single.sampleCount = 1 := by
  intro size rest whole
  rcases hsame with ⟨hkeys, hdirection, hssl⟩
  have hlong := (Kafka.of_request hrequest).1
  have hne : ∀ b : Bytes, 0 < b.length → b ≠ [] := by
    rintro b hb rfl
    cases hb
  rcases delivery_run h hseen htraced.unforced
      (hne (request.take 4) (by rw [List.length_take]; omega)) with ⟨hsizeEvents, hsizeFound⟩
  rcases delivery_run h hseen htraced.unforced (hne request (by omega)) with
    ⟨hwholeEvents, hwholeFound⟩
  -- The second call is seen on what the first one leaves.
  have hthen : (t.run (steps ++ [size])).seenOn? second.key second.startTicks =
      some (c.undergo config control (.data (first.delivering (request.take 4)))).connection := by
    rw [hkeys, seenOn?, hsizeFound]
  have hunforced : control.target.force? (c.undergo config control
      (.data (first.delivering (request.take 4)))).connection.id.key.pid = some false := by
    rw [Connection.id_undergo]
    exact htraced.unforced
  rcases delivery_run h hthen hunforced
      (hne (request.drop 4) (by rw [List.length_drop]; omega)) with ⟨hrestEvents, hrestFound⟩
  rcases hbare.split hkafka hrequest hfits hdirection hssl htakes htraced with
    ⟨header, x, others, hheader, hsize, hrest, hxheader, hposition, hnone, hrebuilt, hsplit⟩
  rcases hbare.whole hkafka hrequest hfits htakes htraced with ⟨hwhole, hwholeNone, hsingle⟩
  have hmoved : ∀ d, Connection.position _ d = Connection.position _ d := fun d =>
    (hsplit.position_eq d).trans (hsingle.position_eq d).symm
  refine ⟨header, x, others, Connection.snapshot _, Connection.snapshot _, ?_, ?_, hheader, hxheader,
    hposition, hnone, hrebuilt, ?_, ?_, ?_, ?_, hsplit.protocol_eq, hsingle.protocol_eq,
    hsplit.role_eq.trans hsingle.role_eq.symm, hmoved .egress, hmoved .ingress,
    hsplit.matchCount_eq.trans hsingle.matchCount_eq.symm, hsplit.sampleCount_eq,
    hsingle.sampleCount_eq⟩
  · rw [hsizeEvents]
    exact hsize
  · rw [hrestEvents]
    exact hrest
  · rw [hwholeEvents]
    exact hwhole
  · rw [hwholeEvents]
    exact hwholeNone
  · have hrun : t.run (steps ++ [size, rest]) = t.run (steps ++ [size] ++ [rest]) := by simp
    rw [connection?, hrun, ← hkeys, hrestFound]
    rfl
  · rw [connection?, hwholeFound]
    rfl

end Tracker

/-! ## A produce request -/

namespace Session

/-- A Kafka request of 12 bytes, after its size. -/
def produce : Bytes :=
  [0, 0, 0, 12, 0, 3, 0, 1, 0, 0, 0, 7, 0, 2, 0, 0]

end Session

namespace Tracker

/-- The tracker that looks for Kafka alone, under the standard bounds. -/
def ofKafka : Tracker :=
  { standard with config := { Config.standard with enabledProtocols := .ofList [.kafka] } }

/-- Of a request that a client writes in two calls, the second one hands on the size. -/
theorem splitRequest_rebuilt_produce :
    make ofKafka.config .everything = .ok ofKafka ∧
      ∃ c, (ofKafka.run [Session.connect ⟨7, 3⟩]).seenOn? ⟨7, 3⟩ 1 = some c ∧
        c.IsBare c.role ∧ c.takes (Session.requesting ⟨7, 3⟩) = true ∧
        Control.everything.TracesRequests c .egress ∧
        (Kafka.classify Session.produce .empty).messageType = .request ∧
        ∃ x others,
          Event.chunks ((ofKafka.run ([Session.connect ⟨7, 3⟩] ++
              [.delivery (Session.requesting ⟨7, 3⟩) (Session.produce.take 4)])).respond
            (.delivery (Session.requesting ⟨7, 3⟩) (Session.produce.drop 4))).events =
              x :: others ∧
          x.lengthHeader = some ⟨0, 0, 0, 12⟩ ∧ x.position = 4 := by
  have hmake : make ofKafka.config .everything = .ok ofKafka := rfl
  have hseen : (ofKafka.run [Session.connect ⟨7, 3⟩]).seenOn? ⟨7, 3⟩ 1 =
      some (.start ⟨⟨7, 3⟩, 1, 1⟩ (Session.connecting ⟨7, 3⟩).address .client) := by
    decide +kernel
  have hrequest : (Kafka.classify Session.produce .empty).messageType = .request := by
    decide +kernel
  have htraced : Control.everything.TracesRequests
      (.start ⟨⟨7, 3⟩, 1, 1⟩ (Session.connecting ⟨7, 3⟩).address .client) .egress :=
    ⟨rfl, by decide, rfl, by decide⟩
  rcases splitRequest_rebuilt hmake (by decide +kernel) [Session.connect ⟨7, 3⟩] hrequest
      (by decide +kernel) (Session.requesting ⟨7, 3⟩) (Session.requesting ⟨7, 3⟩) ⟨rfl, rfl, rfl⟩
      hseen rfl rfl htraced with
    ⟨header, x, others, -, -, -, hchunks, hheader, hxheader, hposition, -⟩
  have hsize : header = ⟨0, 0, 0, 12⟩ := by
    have hbytes := Header.ofBytes?_eq_some_iff.2 hheader.symm
    simpa [Session.produce, Header.ofBytes?] using hbytes.symm
  exact ⟨hmake, _, hseen, rfl, rfl, htraced, hrequest, x, others, hchunks, hsize ▸ hxheader,
    hposition⟩

end Tracker

end FlowTrace
