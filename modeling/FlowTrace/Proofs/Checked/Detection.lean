import FlowTrace.Proofs.Checked.Arithmetic
import FlowTrace.Proofs.Latching
import FlowTrace.Proofs.LengthHeader

/-!
# Checked detection — no payload stops a signature

A signature looks at a payload that the observed process has chosen, byte by byte. Each one first
makes sure that the payload is long enough, but what is long enough differs: a carried header counts
for four bytes that are not there, and a length that was read from the payload is used as an index.
Here every signature is followed with its indices, slices and sums checked. None of them stops,
whatever the payload and the carry, and so neither does the classifier.
-/

namespace FlowTrace

/-! ## Fields -/

namespace Bytes

variable {b : Bytes} {start : Nat}

theorem field?_eq_none {width : Nat} (hwidth : width ≠ 0) (h : b.length < start + width) :
    b.field? start width = none := by
  apply if_neg
  rw [List.length_take, List.length_drop]
  omega

theorem field?_eq_some {width : Nat} (h : start + width ≤ b.length) :
    b.field? start width = some ((b.drop start).take width) := by
  apply if_pos
  rw [List.length_take, List.length_drop]
  omega

theorem int32?_eq_none (h : b.length < start + 4) : b.int32? start = none := by
  simp [int32?, word32?, field?_eq_none (by decide) h]

theorem word16?_eq_none (h : b.length < start + 2) : b.word16? start = none := by
  simp [word16?, field?_eq_none (by decide) h]

theorem bigEndian_lt (h : b.length = 2) : b.bigEndian < 65536 := by
  match b, h with
  | [x, y], _ =>
    have hx := x.toNat_lt
    have hy := y.toNat_lt
    simp only [bigEndian, List.foldl_cons, List.foldl_nil]
    omega

theorem exists_word16? (h : start + 2 ≤ b.length) :
    ∃ n, b.word16? start = some n ∧ n < 65536 := by
  refine ⟨_, by rw [word16?, field?_eq_some h]; rfl, bigEndian_lt ?_⟩
  rw [List.length_take, List.length_drop]
  omega

theorem signed32_bounds (n : Nat) : -2147483648 ≤ signed32 n ∧ signed32 n < 2147483648 := by
  have hsize : ((UInt32.size : Nat) : Int) = 4294967296 := rfl
  have hpos : 0 < UInt32.size := Nat.succ_pos _
  have hmin := Int.le_bmod (x := n) hpos
  have hmax := Int.bmod_lt (x := n) hpos
  rw [hsize] at hmin hmax
  unfold signed32
  omega

/-- A signed 32-bit number leaves room for four more in 64 bits. -/
theorem addSigned_int32? {n : Int} (h : b.int32? start = some n) :
    Checked.addSigned n 4 = pure (n + 4) := by
  have hmin : Int64.minValue.toInt = -9223372036854775808 := rfl
  have hmax : Int64.maxValue.toInt = 9223372036854775807 := rfl
  rcases Option.map_eq_some_iff.1 h with ⟨word, _, rfl⟩
  have hbounds := signed32_bounds word
  apply Checked.addSigned_eq <;> omega

end Bytes

namespace Carry

variable {carry : Carry} {length : Nat}

/-- A length that is announced has 32 bits. -/
theorem le_of_announcesLE (h : carry.announcesLE length = true) : length ≤ Checked.maxWord32 := by
  have hword : Checked.maxWord32 = 4294967295 := rfl
  simp only [announcesLE, Bool.and_eq_true, beq_iff_eq] at h
  rw [← h.2]
  have h0 := carry.header.b0.toNat_lt
  have h1 := carry.header.b1.toNat_lt
  have h2 := carry.header.b2.toNat_lt
  have h3 := carry.header.b3.toNat_lt
  simp only [Header.toBytes, Bytes.littleEndian, List.foldr_cons, List.foldr_nil]
  omega

theorem le_of_announcesBE (h : carry.announcesBE length = true) : length ≤ Checked.maxWord32 := by
  have hword : Checked.maxWord32 = 4294967295 := rfl
  simp only [announcesBE, Bool.and_eq_true, beq_iff_eq] at h
  have hbounds := Bytes.signed32_bounds carry.header.toBytes.bigEndian
  omega

end Carry

/-- The size of a header is its first field. -/
theorem Mux.MessageHeader.size_of_read? {b : Bytes} {header : MessageHeader} {size : Int}
    (hread : read? b = some header) (hsize : b.int32? 0 = some size) : header.size = size := by
  simp only [read?, hsize, Option.bind_eq_bind, Option.bind_some, Option.bind_eq_some_iff] at hread
  rcases hread with ⟨_, _, _, _, hheader⟩
  cases hheader
  rfl

/-- A match that used the carried header is a request. -/
theorem Kafka.messageType_of_usedCarry {b : Bytes} {carry : Carry}
    (h : (classify b carry).usedCarry = true) : (classify b carry).messageType = .request := by
  unfold classify at h ⊢
  split at h
  · rw [if_pos ‹_›]
  · cases h

namespace Checked

variable (b : Bytes) (carry : Carry)

/-! ## Signatures that index the payload -/

def cql : Checked MessageType := do
  if b.length < 9 then return .unknown
  let first ← index b 0
  let flags ← index b 1
  let opcode ← index b 4
  match b.int32? 5 with
  | none => return .unknown
  | some length =>
    return Cql.Frame.messageType
      { fromServer := first &&& 0x80 != 0, version := first &&& 0x7f, flags, opcode, length }

theorem cql_eq : cql b = pure (Cql.classify b) := by
  by_cases hshort : b.length < 9
  · have hnone : b.int32? 5 = none := Bytes.int32?_eq_none hshort
    simp [cql, hshort, Cql.classify, Cql.Frame.read?, hnone]
  · have hindex : ∀ i, i < 9 → ∃ x, b[i]? = some x := fun i hi =>
      ⟨_, List.getElem?_eq_getElem (by omega)⟩
    rcases hindex 0 (by decide) with ⟨first, hfirst⟩
    rcases hindex 1 (by decide) with ⟨flags, hflags⟩
    rcases hindex 4 (by decide) with ⟨opcode, hopcode⟩
    simp only [cql, if_neg hshort, index_eq hfirst, index_eq hflags, index_eq hopcode, pure_bind]
    cases hlength : b.int32? 5 <;>
      simp [Cql.classify, Cql.Frame.read?, hfirst, hflags, hopcode, hlength]

def amqp : Checked MessageType := do
  if b.length < 8 then return .unknown
  let frameType ← index b 0
  if frameType != Amqp.methodFrame then return .unknown
  match b.word16? 7, b.word16? 9 with
  | some classId, some methodId => return Amqp.Method.messageType ⟨classId, methodId⟩
  | _, _ => return .unknown

theorem amqp_eq : amqp b = pure (Amqp.classify b) := by
  by_cases hshort : b.length < 8
  · have hnone : b.word16? 7 = none := Bytes.word16?_eq_none (by omega)
    simp [amqp, hshort, Amqp.classify, Amqp.Method.read?, hnone]
  · have hfirst : b[0]? = some b[0] := List.getElem?_eq_getElem (by omega)
    simp only [amqp, if_neg hshort, index_eq hfirst, pure_bind]
    cases hclass : b.word16? 7 <;> cases hmethod : b.word16? 9 <;>
      by_cases htype : b[0] = Amqp.methodFrame <;>
      simp [Amqp.classify, Amqp.Method.read?, hfirst, hclass, hmethod, htype]

def redis : Checked Bool := do
  if b.length < Redis.minLength then return false
  let first ← index b 0
  return Redis.markers.contains first && b.endsWith Bytes.crlf

theorem redis_eq : redis b = pure (Redis.isValue b) := by
  by_cases hshort : b.length < Redis.minLength
  · have hlong : ¬Redis.minLength ≤ b.length := Nat.not_le.2 hshort
    simp [redis, hshort, Redis.isValue, hlong]
  · have hlong : 3 ≤ b.length := Nat.not_lt.1 hshort
    have hfirst : b[0]? = some b[0] := List.getElem?_eq_getElem (by omega)
    have hmin : decide (Redis.minLength ≤ b.length) = true := decide_eq_true hlong
    simp only [redis, if_neg hshort, index_eq hfirst, pure_bind, Redis.isValue, hmin,
      List.head?_eq_getElem?, hfirst, Option.any_some, Bool.true_and]

def startup : Checked Bool := do
  if b.length < Pgsql.startupMinLength then return false
  match b.int32? 0 with
  | none => return false
  | some length =>
    if ¬((Pgsql.startupMinLength : Int) ≤ length ∧ length ≤ Pgsql.startupMaxLength) then
      return false
    let version ← slice b 4 8
    if version != Pgsql.version3 then return false
    let name ← slice b 8 11
    return name.all Pgsql.isNameByte

theorem startup_eq : startup b = pure (Pgsql.isStartup b) := by
  by_cases hshort : b.length < Pgsql.startupMinLength
  · have hlong : ¬Pgsql.startupMinLength ≤ b.length := Nat.not_le.2 hshort
    simp [startup, hshort, Pgsql.isStartup, hlong]
  · have hlong : 12 ≤ b.length := Nat.not_lt.1 hshort
    have hmin : decide (Pgsql.startupMinLength ≤ b.length) = true := decide_eq_true hlong
    have hversion : b.field? 4 4 = some ((b.drop 4).take 4) := Bytes.field?_eq_some (by omega)
    have hname : b.field? 8 3 = some ((b.drop 8).take 3) := Bytes.field?_eq_some (by omega)
    have hslice : slice b 4 8 = pure ((b.drop 4).take 4) := by
      rw [slice_eq (by decide) (by omega), List.drop_take]
    have hslice' : slice b 8 11 = pure ((b.drop 8).take 3) := by
      rw [slice_eq (by decide) (by omega), List.drop_take]
    simp only [startup, if_neg hshort, hslice, hslice', pure_bind, Pgsql.isStartup, hmin, hversion,
      hname, Bool.true_and, Option.any_some]
    cases hlength : b.int32? 0 with
    | none => simp
    | some length =>
      by_cases hbounds : (Pgsql.startupMinLength : Int) ≤ length ∧ length ≤ Pgsql.startupMaxLength
      · cases hsame : (b.drop 4).take 4 == Pgsql.version3 <;> simp [hbounds, bne, hsame]
      · have hoff : (decide ((Pgsql.startupMinLength : Int) ≤ length) &&
            decide (length ≤ Pgsql.startupMaxLength)) = false := by simpa using hbounds
        simp [hbounds, hoff]

/-- The length that was read tells where the text ends, which may be past the end of the payload. -/
def query : Checked Bool := do
  if b.length < 5 then return false
  let tag ← index b 0
  if tag != Pgsql.queryTag then return false
  match b.int32? 1 with
  | none => return false
  | some length =>
    if ¬((Pgsql.queryMinLength : Int) ≤ length ∧ length ≤ Pgsql.queryMaxLength) then return false
    if length.toNat < b.length then
      let last ← index b length.toNat
      return last == 0
    return true

theorem query_eq : query b = pure (Pgsql.isQuery b) := by
  by_cases hshort : b.length < 5
  · have hnone : b.int32? 1 = none := Bytes.int32?_eq_none (by omega)
    simp [query, hshort, Pgsql.isQuery, hnone]
  · have htag : b[0]? = some b[0] := List.getElem?_eq_getElem (by omega)
    simp only [query, if_neg hshort, index_eq htag, pure_bind, Pgsql.isQuery, htag]
    cases hquery : b[0] == Pgsql.queryTag with
    | false => simp [bne, hquery]
    | true =>
      cases hlength : b.int32? 1 with
      | none => simp [bne, hquery]
      | some length =>
        by_cases hbounds : (Pgsql.queryMinLength : Int) ≤ length ∧ length ≤ Pgsql.queryMaxLength
        · by_cases hstaged : length.toNat < b.length
          · have hlast : b[length.toNat]? = some b[length.toNat] :=
              List.getElem?_eq_getElem hstaged
            simp [bne, hquery, hbounds, hstaged, index_eq hlast]
          · simp [bne, hquery, hbounds, hstaged]
        · have hoff : (decide ((Pgsql.queryMinLength : Int) ≤ length) &&
              decide (length ≤ Pgsql.queryMaxLength)) = false := by simpa using hbounds
          simp [bne, hquery, hbounds, hoff]

def pgsql : Checked MessageType := do
  if ← startup b then return .request
  if ← query b then return .request
  return .unknown

theorem pgsql_eq : pgsql b = pure (Pgsql.classify b) := by
  simp only [pgsql, startup_eq, query_eq, pure_bind, Pgsql.classify]
  cases Pgsql.isStartup b <;> cases Pgsql.isQuery b <;> rfl

/-! ## Signatures that use the carry -/

/-- The bytes of a payload and its header, where the header was read before. -/
def counted (carried : Bool) : Checked Nat :=
  if carried then add b.length 4 else pure b.length

theorem counted_false : counted b false = pure b.length :=
  rfl

theorem counted_true (h : b.length ≤ maxWord32) : counted b true = pure (b.length + 4) := by
  have hword : maxWord = 18446744073709551615 := rfl
  have hword32 : maxWord32 = 4294967295 := rfl
  exact add_eq (by omega)

def mysql : Checked Match := do
  let carried := carry.announcesLE b.length
  let count ← counted b carried
  if count < 5 then return ⟨.unknown, false⟩
  let packet : Mysql.Packet ←
    if carried then do
      let command ← index b 0
      pure ⟨carry.header, command⟩
    else do
      let b0 ← index b 0
      let b1 ← index b 1
      let b2 ← index b 2
      let b3 ← index b 3
      let command ← index b 4
      pure ⟨⟨b0, b1, b2, b3⟩, command⟩
  return if packet.isCommand then ⟨.request, carried⟩ else ⟨.unknown, false⟩

theorem mysql_eq : mysql b carry = pure (Mysql.classify b carry) := by
  cases hcarried : carry.announcesLE b.length with
  | true =>
    -- The header is at hand, and the command is the first byte, if there is one.
    have hcount := counted_true b (Carry.le_of_announcesLE hcarried)
    simp only [mysql, hcarried, hcount, pure_bind, Mysql.classify, Mysql.Packet.read?]
    cases b with
    | nil => rfl
    | cons command rest =>
      have hlong : ¬(command :: rest).length + 4 < 5 := by simp
      exact if_neg hlong
  | false =>
    simp only [mysql, hcarried, counted_false, pure_bind, Mysql.classify, Mysql.Packet.read?]
    match b with
    | [] | [_] | [_, _] | [_, _, _] | [_, _, _, _] => rfl
    | b0 :: b1 :: b2 :: b3 :: command :: rest =>
      have hlong : ¬(b0 :: b1 :: b2 :: b3 :: command :: rest).length < 5 := by simp
      exact if_neg hlong

def kafka : Checked Match := do
  let carried := carry.announcesBE b.length
  let count ← counted b carried
  if count < 12 then return ⟨.unknown, false⟩
  let size? : Option Int ←
    if carried then pure (some (count : Int))
    else
      match b.int32? 0 with
      | none => pure none
      | some size => do
        let size ← addSigned size 4
        pure (some size)
  if size? != some (count : Int) then return ⟨.unknown, false⟩
  let body ← if carried then pure b else slice b 4 b.length
  return if (Kafka.RequestHeader.read? body).any Kafka.RequestHeader.wellFormed then
    ⟨.request, carried⟩ else ⟨.unknown, false⟩

theorem kafka_eq : kafka b carry = pure (Kafka.classify b carry) := by
  have hshort : ∀ body : Bytes, body.length < 8 → Kafka.RequestHeader.read? body = none := by
    intro body hlength
    cases hread : Kafka.RequestHeader.read? body with
    | none => rfl
    | some header => exact absurd (Kafka.RequestHeader.le_length hread) (Nat.not_le.2 hlength)
  cases hcarried : carry.announcesBE b.length with
  | true =>
    have hcount := counted_true b (Carry.le_of_announcesBE hcarried)
    simp only [kafka, hcarried, hcount, pure_bind, Kafka.classify, Kafka.body?]
    by_cases hlength : b.length + 4 < 12
    · simp [hlength, hshort b (by omega)]
    · simp [hlength]
  | false =>
    simp only [kafka, hcarried, counted_false, pure_bind, Kafka.classify, Kafka.body?]
    by_cases hlength : b.length < 12
    · have hnone := hshort (b.drop 4) (by rw [List.length_drop]; omega)
      cases (b.int32? 0).any fun size => size + 4 == (b.length : Int) <;> simp [hlength, hnone]
    · have hslice : slice b 4 b.length = pure (b.drop 4) := by
        rw [slice_eq (by omega) (Nat.le_refl _), List.take_length]
      cases hread : b.int32? 0 with
      | none => simp [hlength]
      | some size =>
        have hsum := Bytes.addSigned_int32? hread
        by_cases hsize : size + 4 = (b.length : Int) <;> simp [hlength, hsum, hsize, hslice]

/-! ## Signatures that add what they read -/

/-- The numbers of records are added one after the other. -/
def records (header : Dns.MessageHeader) : Checked Nat := do
  let count ← add32 header.questions header.answers
  let count ← add32 count header.authorities
  add32 count header.additionals

def recordsType (header : Dns.MessageHeader) : Checked MessageType := do
  if header.reserved || header.opcode != 0 then return .unknown
  if header.questions == 0 || Dns.maxQuestions < header.questions then return .unknown
  let count ← records header
  if Dns.maxRecords < count then return .unknown
  return if header.isAnswer then .response else .request

/-- Four 16-bit numbers fit a 32-bit sum. -/
theorem recordsType_eq {header : Dns.MessageHeader} (hquestions : header.questions < 65536)
    (hanswers : header.answers < 65536) (hauthorities : header.authorities < 65536)
    (hadditionals : header.additionals < 65536) :
    recordsType header = pure header.messageType := by
  have hword : maxWord32 = 4294967295 := rfl
  have hcount : records header = pure header.records := by
    rw [records, add32_eq (by omega), pure_bind, add32_eq (by omega), pure_bind,
      add32_eq (by omega)]
    rfl
  simp only [recordsType, hcount, pure_bind, Dns.MessageHeader.messageType,
    Dns.MessageHeader.wellFormed]
  split_ifs <;> grind

def dns : Checked MessageType := do
  if b.length < 12 ∨ Dns.maxLength < b.length then return .unknown
  let field start := (b.word16? start).getD 0
  recordsType
    { flags := field 2, questions := field 4, answers := field 6, authorities := field 8,
      additionals := field 10 }

theorem dns_eq : dns b = pure (Dns.classify b) := by
  by_cases hlength : b.length < 12 ∨ Dns.maxLength < b.length
  · have hunknown : Dns.classify b = .unknown := by
      rcases hlength with hshort | hlong
      · have hnone : b.word16? 10 = none := Bytes.word16?_eq_none (by omega)
        simp [Dns.classify, Dns.MessageHeader.read?, hnone]
      · exact if_neg (Nat.not_le.2 hlong)
    rw [hunknown]
    exact if_pos hlength
  · rcases not_or.1 hlength with ⟨hshort, hlong⟩
    have hfield : ∀ start, start ≤ 10 → ∃ n, b.word16? start = some n ∧ n < 65536 :=
      fun start hstart => Bytes.exists_word16? (by omega)
    rcases hfield 2 (by decide) with ⟨flags, hflags, _⟩
    rcases hfield 4 (by decide) with ⟨questions, hquestions, hsmall₁⟩
    rcases hfield 6 (by decide) with ⟨answers, hanswers, hsmall₂⟩
    rcases hfield 8 (by decide) with ⟨authorities, hauthorities, hsmall₃⟩
    rcases hfield 10 (by decide) with ⟨additionals, hadditionals, hsmall₄⟩
    have hread : Dns.MessageHeader.read? b =
        some ⟨flags, questions, answers, authorities, additionals⟩ := by
      simp [Dns.MessageHeader.read?, hflags, hquestions, hanswers, hauthorities, hadditionals]
    simp only [dns, if_neg hlength, hflags, hquestions, hanswers, hauthorities, hadditionals,
      Option.getD_some, Dns.classify, if_pos (Nat.not_lt.1 hlong), hread, Option.map_some]
    exact recordsType_eq hsmall₁ hsmall₂ hsmall₃ hsmall₄

/-- The mark of an error message, where `finish` is where the message ends. -/
def errorMarkAt (finish : Int) : Bool :=
  Mux.errorMark.length ≤ finish &&
    b.field? (finish - Mux.errorMark.length).toNat Mux.errorMark.length == some Mux.errorMark

def mux : Checked MessageType := do
  if b.length < 8 then return .unknown
  match b.int32? 0 with
  | none => return .unknown
  | some size =>
    let finish ← addSigned size 4
    match Mux.MessageHeader.read? b with
    | none => return .unknown
    | some header =>
      let marked := match header.kind with
        | .error | .legacyError => errorMarkAt b finish
        | .initRequest | .initResponse => Mux.hasInitMark b
        | .dispatchRequest | .dispatchResponse => true
      return if marked && 1 ≤ header.tag && header.tag ≤ Mux.maxTag then header.kind.messageType
        else .unknown

theorem mux_eq : mux b = pure (Mux.classify b) := by
  by_cases hshort : b.length < 8
  · have hnone : b.field? 5 3 = none := Bytes.field?_eq_none (by decide) (by omega)
    simp [mux, hshort, Mux.classify, Mux.MessageHeader.read?, hnone]
  · cases hsize : b.int32? 0 with
    | none => simp [mux, hshort, hsize, Mux.classify, Mux.MessageHeader.read?]
    | some size =>
      simp only [mux, if_neg hshort, hsize, Bytes.addSigned_int32? hsize, pure_bind, Mux.classify]
      cases hread : Mux.MessageHeader.read? b with
      | none => rfl
      | some header =>
        have hsame : header.size = size := Mux.MessageHeader.size_of_read? hread hsize
        simp only [Mux.isMarked, hsame]
        rfl

/-! ## The classifier -/

variable (e : Classifier) (latched : Protocol)

/-- Each index is below the width of the mask. -/
def contains (s : ProtocolSet) (p : Protocol) : Checked Bool := do
  let bit ← shiftLeft 1 p.index
  return s.bits &&& bit != 0

theorem contains_eq (s : ProtocolSet) (p : Protocol) : contains s p = pure (s.contains p) := by
  have hindex : p.index < 32 := by cases p <;> decide
  rw [contains, shiftLeft_eq hindex]
  rfl

/-- What the signature of `p` sees in the payload. Kafka also marks the carry where its header is to
be handed on. -/
def recognise (p : Protocol) : Checked (Option MessageType × Carry) := do
  match p with
  | .http => return ((Http.classify b).known?, carry)
  | .cql => return ((← cql b).known?, carry)
  | .mongo => return ((Mongo.classify b).known?, carry)
  | .pgsql => return ((← pgsql b).known?, carry)
  | .mysql => return ((← mysql b carry).messageType.known?, carry)
  | .kafka =>
    let found ← kafka b carry
    let first := found.usedCarry && found.messageType == .request && latched == .unknown
    return (found.messageType.known?, if first then { carry with prepend := true } else carry)
  | .amqp => return ((← amqp b).known?, carry)
  | .dns => return ((← dns b).known?, carry)
  | .redis => return (if ← redis b then some .unknown else none, carry)
  | .mux => return ((← mux b).known?, carry)
  | .nats => return ((Nats.classify b).known?, carry)
  | .unknown | .http2 => return (none, carry)

/-- The first enabled signature that matches gives the verdict. -/
def scan (carry : Carry) : List Protocol → Checked (Verdict × Carry)
  | [] => return (.unknown, carry)
  | p :: rest => do
    if ← contains e.enabled p then
      let (found?, carry) ← recognise b carry latched p
      match found? with
      | some messageType => return (⟨p, messageType⟩, carry)
      | none => scan carry rest
    else scan carry rest

def infer : Checked (Verdict × Carry) := do
  let carry := carry.clearPrepend
  let (verdict, carry) ←
    if latched = .mongo then pure (.unknown, carry)
    else scan b e latched carry Protocol.precedence
  return (verdict, carry.record b)

/-- The carry after a verdict for `p`. -/
def marked (p : Protocol) : Carry :=
  if p == .kafka && (Kafka.classify b carry).usedCarry && latched == .unknown then
    { carry with prepend := true }
  else carry

theorem recognise_eq (p : Protocol) :
    recognise b carry latched p = pure (p.recognise? b carry, marked b carry latched p) := by
  cases p with
  | kafka =>
    simp only [recognise, kafka_eq, pure_bind, Protocol.recognise?, marked, BEq.rfl, Bool.true_and]
    cases hused : (Kafka.classify b carry).usedCarry with
    | false => rfl
    | true => simp [Kafka.messageType_of_usedCarry hused]
  | cql => rw [recognise, cql_eq]; rfl
  | pgsql => rw [recognise, pgsql_eq]; rfl
  | mysql => rw [recognise, mysql_eq]; rfl
  | amqp => rw [recognise, amqp_eq]; rfl
  | dns => rw [recognise, dns_eq]; rfl
  | redis => rw [recognise, redis_eq]; rfl
  | mux => rw [recognise, mux_eq]; rfl
  | unknown | http | http2 | nats | mongo => rfl

/-- A signature that finds nothing leaves the carry as it was. -/
theorem marked_of_recognise? {p : Protocol} (h : p.recognise? b carry = none) :
    marked b carry latched p = carry := by
  cases p with
  | kafka =>
    cases hused : (Kafka.classify b carry).usedCarry with
    | false => simp [marked, hused]
    | true => simp [Protocol.recognise?, Kafka.messageType_of_usedCarry hused,
        MessageType.known?, MessageType.isKnown] at h
  | _ => rfl

/-- What the scan finds among the protocols that are left. -/
def firstOf (ps : List Protocol) : Verdict :=
  ((ps.filter e.enabled.contains).findSome? fun p =>
    (p.recognise? b carry).map (Verdict.mk p)).getD .unknown

theorem scan_eq (ps : List Protocol) :
    scan b e latched carry ps =
      pure (firstOf b carry e ps, marked b carry latched (firstOf b carry e ps).protocol) := by
  induction ps with
  | nil => rfl
  | cons p rest ih =>
    simp only [scan, contains_eq, pure_bind]
    cases henabled : e.enabled.contains p with
    | false =>
      have hskip : firstOf b carry e (p :: rest) = firstOf b carry e rest := by
        simp [firstOf, henabled]
      rw [hskip, ← ih]
      rfl
    | true =>
      simp only [recognise_eq, pure_bind, if_true]
      cases hfound : p.recognise? b carry with
      | some messageType =>
        have hfirst : firstOf b carry e (p :: rest) = ⟨p, messageType⟩ := by
          simp [firstOf, henabled, hfound]
        rw [hfirst]
      | none =>
        have hskip : firstOf b carry e (p :: rest) = firstOf b carry e rest := by
          simp [firstOf, henabled, hfound]
        rw [hskip, marked_of_recognise? b carry latched hfound, ← ih]

/-- The classifier is not stopped either, whatever is enabled and whatever was found before. -/
theorem infer_eq : infer b carry e latched = pure (e.infer b carry latched) := by
  rw [← e.infer_clearPrepend]
  by_cases hmongo : latched = .mongo
  · rw [infer, if_pos hmongo, pure_bind, Classifier.infer, if_pos hmongo]
    rfl
  · have hrecord : ∀ p, (marked b carry.clearPrepend latched p).record b =
        { carry.clearPrepend.record b with
          prepend := p == .kafka && (Kafka.classify b carry.clearPrepend).usedCarry &&
            latched == .unknown } := by
      intro p
      rw [marked]
      cases p == .kafka && (Kafka.classify b carry.clearPrepend).usedCarry &&
        latched == .unknown <;> rfl
    rw [infer, if_neg hmongo, scan_eq, pure_bind, Classifier.infer, if_neg hmongo]
    simp only [hrecord]
    rfl

end Checked

end FlowTrace
