import FlowTrace.Proofs.Gluing
import FlowTrace.Signature.Amqp
import FlowTrace.Signature.Cql
import FlowTrace.Signature.Dns
import FlowTrace.Signature.Http
import FlowTrace.Signature.Mongo
import FlowTrace.Signature.Mux
import FlowTrace.Signature.Pgsql
import Mathlib.Data.List.Infix

/-!
# Extension — what a payload was taken for when more of it is staged

How much of a message is staged is up to the caller. A signature that reads a header at fixed places
settles on what it found there: more bytes do not change what was read, `Bytes.Settles`, and so they
do not change the verdict, `IsStable`. This holds for Mux too, whose error mark stands where the size
says that the message ends, and not where the payload ends.

Two signatures look at more than what they have read. DNS refuses payloads that are too long for a
datagram. PostgreSQL takes a query whose last byte was not staged, and takes it back if that byte is
staged and is not zero. No other verdict of PostgreSQL is overturned, and the longer payload is not
taken for a startup packet instead: the tag of a query, read as the length of a packet, is too large.

Kafka, Redis and NATS are not among these signatures, because they look at the end of the payload.
-/

namespace FlowTrace

/-! ## What was read -/

namespace Bytes

variable {α β : Type} {read? : Bytes → Option α}

/-- What is read from a payload is also read from every longer one. -/
def Settles (read? : Bytes → Option α) : Prop :=
  ∀ b more found, read? b = some found → read? (b ++ more) = some found

theorem settles_const (found? : Option α) : Settles fun _ => found? :=
  fun _ _ _ hfound => hfound

theorem settles_getElem? (i : Nat) : Settles fun b => b[i]? := by
  intro b more x hx
  have hstaged : i < b.length := (List.getElem?_eq_some_iff.1 hx).1
  exact (List.getElem?_append_left hstaged).trans hx

theorem settles_field? (start width : Nat) : Settles fun b => b.field? start width :=
  fun _ more _ hfound => field?_append hfound more

theorem Settles.map (h : Settles read?) (f : α → β) : Settles fun b => (read? b).map f := by
  intro b more y hy
  rcases Option.map_eq_some_iff.1 hy with ⟨found, hfound, rfl⟩
  exact Option.map_eq_some_iff.2 ⟨found, h b more found hfound, rfl⟩

/-- The next read may depend on what was found before. -/
theorem Settles.bind {next? : α → Bytes → Option β} (h : Settles read?)
    (hnext : ∀ found, Settles (next? found)) : Settles fun b => (read? b).bind (next? · b) := by
  intro b more y hy
  rcases Option.bind_eq_some_iff.1 hy with ⟨found, hfound, hnextFound⟩
  exact Option.bind_eq_some_iff.2
    ⟨found, h b more found hfound, hnext found b more y hnextFound⟩

theorem Settles.any (h : Settles read?) {b : Bytes} {test : α → Bool}
    (hb : (read? b).any test = true) (more : Bytes) : (read? (b ++ more)).any test = true := by
  rcases (Option.any_eq_true _ _).1 hb with ⟨found, hfound, htest⟩
  exact (Option.any_eq_true _ _).2 ⟨found, h b more found hfound, htest⟩

theorem settles_word16? (start : Nat) : Settles fun b => b.word16? start :=
  (settles_field? start 2).map bigEndian

theorem settles_int32? (start : Nat) : Settles fun b => b.int32? start :=
  ((settles_field? start 4).map bigEndian).map signed32

theorem settles_int32LE? (start : Nat) : Settles fun b => b.int32LE? start :=
  (settles_field? start 4).map fun w => signed32 w.littleEndian

/-- Whether a mark stands in front is told by as many bytes as it has. -/
theorem isPrefixOf_append {mark b : Bytes} (h : mark.length ≤ b.length) (more : Bytes) :
    mark.isPrefixOf (b ++ more) = mark.isPrefixOf b := by
  rw [Bool.eq_iff_iff, List.isPrefixOf_iff_prefix, List.isPrefixOf_iff_prefix,
    List.isPrefix_append_of_length h]

end Bytes

/-- A number that takes three bytes leaves the first of four empty. -/
theorem Header.b0_eq_zero (h : Header) (hmin : 0 ≤ Bytes.signed32 h.toBytes.bigEndian)
    (hmax : Bytes.signed32 h.toBytes.bigEndian < 16777216) : h.b0 = 0 := by
  have hword := h.bigEndian_eq
  have hlt := h.bigEndian_lt
  rw [Bytes.signed32_eq hlt] at hmin hmax
  -- With the sign, the number would be negative.
  have hzero : h.b0.toNat = 0 := by
    split_ifs at hmin hmax <;> omega
  exact UInt8.toNat_inj.1 hzero

/-! ## Headers -/

/-- The signature takes no verdict back when more bytes are staged. -/
def IsStable (classify : Bytes → MessageType) : Prop :=
  ∀ b more, (classify b).isKnown = true → classify (b ++ more) = classify b

/-- A verdict on what was read, if anything was, is not taken back. -/
theorem Bytes.Settles.isStable {α : Type} {read? : Bytes → Option α} (h : Settles read?)
    (kind : α → MessageType) {classify : Bytes → MessageType}
    (hclassify : ∀ b, classify b = ((read? b).map kind).getD .unknown) : IsStable classify := by
  intro b more hknown
  rw [hclassify] at hknown
  rw [hclassify, hclassify]
  cases hfound : read? b with
  | none =>
    rw [hfound] at hknown
    cases hknown
  | some found => rw [h b more found hfound]

theorem Cql.Frame.settles_read? : Bytes.Settles Frame.read? := by
  refine (Bytes.settles_getElem? 0).bind fun version => ?_
  refine (Bytes.settles_getElem? 1).bind fun flags => ?_
  refine (Bytes.settles_getElem? 4).bind fun opcode => ?_
  refine (Bytes.settles_int32? 5).bind fun length => ?_
  exact Bytes.settles_const _

theorem Cql.isStable_classify : IsStable Cql.classify :=
  Frame.settles_read?.isStable Frame.messageType fun _ => rfl

theorem Mongo.MessageHeader.settles_read? : Bytes.Settles MessageHeader.read? := by
  refine (Bytes.settles_int32LE? 0).bind fun messageLength => ?_
  refine (Bytes.settles_int32LE? 4).bind fun requestId => ?_
  refine (Bytes.settles_int32LE? 8).bind fun responseTo => ?_
  refine (Bytes.settles_int32LE? 12).bind fun opcode => ?_
  exact Bytes.settles_const _

theorem Mongo.isStable_classify : IsStable Mongo.classify := by
  refine MessageHeader.settles_read?.isStable
    (fun h => if h.isRequest then .request else .unknown) fun b => ?_
  rw [Mongo.classify]
  cases MessageHeader.read? b <;> rfl

theorem Amqp.Method.settles_read? : Bytes.Settles Method.read? := by
  refine (Bytes.settles_getElem? 0).bind fun frameType => ?_
  refine (Bytes.settles_word16? 7).bind fun classId => ?_
  refine (Bytes.settles_word16? 9).bind fun methodId => ?_
  exact Bytes.settles_const _

theorem Amqp.isStable_classify : IsStable Amqp.classify :=
  Method.settles_read?.isStable Method.messageType fun _ => rfl

theorem Dns.MessageHeader.settles_read? : Bytes.Settles MessageHeader.read? := by
  refine (Bytes.settles_word16? 2).bind fun flags => ?_
  refine (Bytes.settles_word16? 4).bind fun questions => ?_
  refine (Bytes.settles_word16? 6).bind fun answers => ?_
  refine (Bytes.settles_word16? 8).bind fun authorities => ?_
  refine (Bytes.settles_word16? 10).bind fun additionals => ?_
  exact Bytes.settles_const _

/-- The verdict lasts up to the length of a datagram. -/
theorem Dns.classify_append {b : Bytes} (hknown : (classify b).isKnown = true) (more : Bytes) :
    classify (b ++ more) = if (b ++ more).length ≤ maxLength then classify b else .unknown := by
  have hfits : b.length ≤ maxLength := by
    by_contra hlong
    rw [classify, if_neg hlong] at hknown
    cases hknown
  rw [classify, if_pos hfits] at hknown
  have hheader := MessageHeader.settles_read?.isStable MessageHeader.messageType (fun _ => rfl)
  have hkept : ((MessageHeader.read? (b ++ more)).map MessageHeader.messageType).getD .unknown =
      ((MessageHeader.read? b).map MessageHeader.messageType).getD .unknown :=
    hheader b more hknown
  rw [classify, classify, if_pos hfits, hkept]

/-! ## Marks -/

namespace Http

theorem length_le_of_mem_methods {m : Bytes} (hm : m ∈ methods) : m.length ≤ minLength := by
  revert m
  decide

theorem isStable_classify : IsStable Http.classify := by
  intro b more hknown
  have hlong : minLength ≤ b.length := by
    by_contra hshort
    rw [classify, if_pos (Nat.not_le.1 hshort)] at hknown
    cases hknown
  have hmark : ∀ mark : Bytes, mark.length ≤ minLength →
      mark.isPrefixOf (b ++ more) = mark.isPrefixOf b := fun _ hmark =>
    Bytes.isPrefixOf_append (Nat.le_trans hmark hlong) more
  have hmethods : (methods.any fun m => m.isPrefixOf (b ++ more)) =
      methods.any fun m => m.isPrefixOf b := by
    rw [Bool.eq_iff_iff, List.any_eq_true, List.any_eq_true]
    refine exists_congr fun m => and_congr_right fun hm => ?_
    rw [hmark m (length_le_of_mem_methods hm)]
  have hshort : ¬(b ++ more).length < minLength := by
    rw [List.length_append]
    omega
  rw [classify, classify, if_neg hshort, if_neg (Nat.not_lt.2 hlong), hmark statusMark (by decide),
    hmethods]

end Http

namespace Mux

variable {b : Bytes} {size : Int} {kind : Kind}

theorem MessageHeader.settles_read? : Bytes.Settles MessageHeader.read? := by
  have hkind : Bytes.Settles fun b => b[4]?.bind Kind.ofByte? :=
    (Bytes.settles_getElem? 4).bind fun _ => Bytes.settles_const _
  refine (Bytes.settles_int32? 0).bind fun size => ?_
  refine hkind.bind fun kind => ?_
  refine ((Bytes.settles_field? 5 3).map Bytes.bigEndian).bind fun tag => ?_
  exact Bytes.settles_const _

/-- A mark is a field. Where it stands is told by the size in the header, if at all. -/
theorem isMarked_append (h : isMarked b size kind = true) (more : Bytes) :
    isMarked (b ++ more) size kind = true := by
  cases kind with
  | dispatchRequest | dispatchResponse => rfl
  | initRequest | initResponse =>
    exact beq_iff_eq.2 (Bytes.field?_append (beq_iff_eq.1 h) more)
  | error | legacyError =>
    simp only [isMarked, hasErrorMark, Bool.and_eq_true, beq_iff_eq] at h ⊢
    exact ⟨h.1, Bytes.field?_append h.2 more⟩

/-- The header, if the message bears the mark that is asked of its kind. -/
def marked? (b : Bytes) : Option MessageHeader :=
  (MessageHeader.read? b).bind fun h => if isMarked b h.size h.kind then some h else none

theorem settles_marked? : Bytes.Settles marked? := by
  refine MessageHeader.settles_read?.bind fun h b more found hfound => ?_
  cases hmarked : isMarked b h.size h.kind with
  | false => simp [hmarked] at hfound
  | true => simpa [hmarked, isMarked_append hmarked more] using hfound

theorem isStable_classify : IsStable Mux.classify := by
  refine settles_marked?.isStable
    (fun h => if 1 ≤ h.tag && h.tag ≤ maxTag then h.kind.messageType else .unknown)
    fun b => ?_
  cases hread : MessageHeader.read? b with
  | none => simp [classify, marked?, hread]
  | some h =>
    cases hmarked : isMarked b h.size h.kind <;> simp [classify, marked?, hread, hmarked]

end Mux

/-! ## MySQL -/

namespace Mysql

/-- Without a header that came before, the packet is in the first five bytes. -/
theorem Packet.settles_read? : Bytes.Settles fun b => Packet.read? b .empty := by
  intro b more packet hpacket
  match b, hpacket with
  | _ :: _ :: _ :: _ :: _ :: _, hpacket => exact hpacket

theorem isStable_classify {carry : Carry} {seen : Bytes} (hsaw : carry.LastSaw seen)
    (hother : seen.length ≠ 4) : IsStable fun b => (Mysql.classify b carry).messageType := by
  refine Packet.settles_read?.isStable
    (fun p => if p.isCommand then .request else .unknown) fun b => ?_
  have hannounces : ¬Announces seen b := fun h => hother h.1
  rw [(classify_of_not_announced hsaw hannounces).1, classify]
  cases hread : Packet.read? b .empty with
  | none => rfl
  | some p => cases hcommand : p.isCommand <;> simp [hcommand]

end Mysql

/-! ## PostgreSQL -/

namespace Pgsql

variable {b : Bytes} {n : Nat}

/-- The query was taken without its last byte, which turns out not to be zero. -/
def IsOverturned (b more : Bytes) : Prop :=
  isStartup b = false ∧ isQuery b = true ∧
    ∃ (n : Nat) (last : UInt8), b.int32? 1 = some (n : Int) ∧ b.length ≤ n ∧
      (b ++ more)[n]? = some last ∧ last ≠ 0

/-- The payload starts like a query that ends `n` bytes after its tag. -/
structure IsQueryHeader (b : Bytes) (n : Nat) : Prop where
  tag : b[0]? = some queryTag
  length : b.int32? 1 = some (n : Int)
  min_le : queryMinLength ≤ n
  le_max : n ≤ queryMaxLength

theorem IsQueryHeader.append (h : IsQueryHeader b n) (more : Bytes) :
    IsQueryHeader (b ++ more) n :=
  ⟨Bytes.settles_getElem? 0 b more _ h.tag, Bytes.settles_int32? 1 b more _ h.length, h.min_le,
    h.le_max⟩

theorem exists_isQueryHeader (h : isQuery b = true) : ∃ n, IsQueryHeader b n := by
  simp only [isQuery, Bool.and_eq_true, beq_iff_eq] at h
  rcases (Option.any_eq_true _ _).1 h.2 with ⟨length, hlength, htest⟩
  simp only [Bool.and_eq_true, decide_eq_true_eq] at htest
  rcases htest with ⟨⟨hmin, hmax⟩, -⟩
  obtain ⟨n, rfl⟩ := Int.eq_ofNat_of_zero_le (Int.le_trans (Int.natCast_nonneg _) hmin)
  exact ⟨n, h.1, hlength, Int.ofNat_le.1 hmin, Int.ofNat_le.1 hmax⟩

/-- What the header leaves open is whether the last byte is zero, where it was staged. -/
theorem IsQueryHeader.isQuery_eq (h : IsQueryHeader b n) : isQuery b = (b[n]?).all (· == 0) := by
  have hmin : (queryMinLength : Int) ≤ n := Int.ofNat_le.2 h.min_le
  have hmax : (n : Int) ≤ queryMaxLength := Int.ofNat_le.2 h.le_max
  simp [isQuery, h.tag, h.length, hmin, hmax]

theorem isOverturned_iff (hstartup : isStartup b = false) (hquery : isQuery b = true)
    (more : Bytes) : IsOverturned b more ↔ isQuery (b ++ more) = false := by
  rcases exists_isQueryHeader hquery with ⟨n, hheader⟩
  rw [(hheader.append more).isQuery_eq]
  constructor
  · rintro ⟨-, -, n', last, hlength, -, hstaged, hne⟩
    obtain rfl : n' = n := Int.ofNat.inj (Option.some.inj (hlength.symm.trans hheader.length))
    simp [hstaged, hne]
  · intro hopen
    cases hstaged : (b ++ more)[n]? with
    | none => simp [hstaged] at hopen
    | some last =>
      have hne : last ≠ 0 := by simpa [hstaged] using hopen
      have hlate : b.length ≤ n := by
        -- A byte that was staged before was looked at before.
        by_contra hin
        rw [List.getElem?_append_left (Nat.not_le.1 hin)] at hstaged
        rw [hheader.isQuery_eq, hstaged] at hquery
        exact hne (by simpa using hquery)
      exact ⟨hstartup, hquery, n, last, hheader.length, hlate, hstaged, hne⟩

theorem isStartup_append (h : isStartup b = true) (more : Bytes) :
    isStartup (b ++ more) = true := by
  simp only [isStartup, Bool.and_eq_true, decide_eq_true_eq, beq_iff_eq] at h ⊢
  rcases h with ⟨⟨⟨hlong, hlength⟩, hversion⟩, hname⟩
  have hlonger : startupMinLength ≤ (b ++ more).length := by
    rw [List.length_append]
    omega
  exact ⟨⟨⟨hlonger, (Bytes.settles_int32? 0).any hlength more⟩, Bytes.field?_append hversion more⟩,
    (Bytes.settles_field? 8 3).any hname more⟩

/-- The length of a startup packet is so small that its first byte is zero. -/
theorem head_of_isStartup (h : isStartup b = true) : b[0]? = some 0 := by
  simp only [isStartup, Bool.and_eq_true] at h
  rcases (Option.any_eq_true _ _).1 h.1.1.2 with ⟨length, hlength, hbounds⟩
  simp only [Bool.and_eq_true, decide_eq_true_eq] at hbounds
  obtain ⟨word, hword, rfl⟩ := Option.map_eq_some_iff.1 hlength
  obtain ⟨front, hfront, rfl⟩ := Option.map_eq_some_iff.1 hword
  rcases Bytes.field?_eq_some_iff.1 hfront with ⟨htake, hfour⟩
  rcases Header.exists_ofBytes? hfour with ⟨header, hheader⟩
  obtain rfl := Header.ofBytes?_eq_some_iff.1 hheader
  have hmax : startupMaxLength = 10240 := rfl
  have hzero : header.b0 = 0 := header.b0_eq_zero (by omega) (by omega)
  have hhead : b[0]? = header.toBytes[0]? := by
    rw [← htake]
    simp
  rw [hhead, ← hzero]
  rfl

theorem classify_append (hrequest : classify b = .request) (more : Bytes) :
    (IsOverturned b more → classify (b ++ more) = .unknown) ∧
      (¬IsOverturned b more → classify (b ++ more) = .request) := by
  cases hstartup : isStartup b with
  | true =>
    refine ⟨fun hover => ?_, fun _ => ?_⟩
    · rw [hover.1] at hstartup
      cases hstartup
    · simp [classify, isStartup_append hstartup more]
  | false =>
    have hquery : isQuery b = true := by
      cases hquery : isQuery b with
      | true => rfl
      | false => simp [classify, hstartup, hquery] at hrequest
    have hother : isStartup (b ++ more) = false := by
      rcases exists_isQueryHeader hquery with ⟨n, hheader⟩
      rw [← Bool.not_eq_true]
      intro hlonger
      have hhead := head_of_isStartup hlonger
      rw [(hheader.append more).tag] at hhead
      exact absurd hhead (by decide)
    rw [isOverturned_iff hstartup hquery, classify, hother]
    cases isQuery (b ++ more) <;> simp

end Pgsql

/-! ## All of them -/

/-- A known verdict on a payload is the verdict on every longer payload, for the signatures that read
a header, and for MySQL where the payload before was not one. DNS keeps it up to the length of a
datagram and withdraws it beyond. PostgreSQL takes back only a query that has no zero byte at its end,
once the end is staged. -/
theorem header_verdicts_last :
    IsStable Http.classify ∧ IsStable Cql.classify ∧ IsStable Mongo.classify ∧
      IsStable Amqp.classify ∧ IsStable Mux.classify ∧
      (∀ (carry : Carry) (seen : Bytes), carry.LastSaw seen → seen.length ≠ 4 →
        IsStable fun b => (Mysql.classify b carry).messageType) ∧
      (∀ b more, (Dns.classify b).isKnown = true → Dns.classify (b ++ more) =
        if (b ++ more).length ≤ Dns.maxLength then Dns.classify b else .unknown) ∧
      ∀ b more, Pgsql.classify b = .request →
        (Pgsql.IsOverturned b more → Pgsql.classify (b ++ more) = .unknown) ∧
          (¬Pgsql.IsOverturned b more → Pgsql.classify (b ++ more) = .request) := by
  refine ⟨Http.isStable_classify, Cql.isStable_classify, Mongo.isStable_classify,
    Amqp.isStable_classify, Mux.isStable_classify, ?_, ?_, ?_⟩
  · intro carry seen hsaw hother
    exact Mysql.isStable_classify hsaw hother
  · intro b more hknown
    exact Dns.classify_append hknown more
  · intro b more hrequest
    exact Pgsql.classify_append hrequest more

namespace Session

/-- The header of a query that has three letters. -/
def queryHeader : Bytes :=
  [0x51, 0, 0, 0, 8]

/-- A question for one name, without the name. -/
def question : Bytes :=
  [0, 7, 1, 0, 0, 1, 0, 0, 0, 0, 0, 0]

end Session

/-- The header of a query is enough, unless what follows does not end as it should. The rest of a
question may be as long as a datagram has room for it. A command of MySQL may grow after a payload of
one byte. -/
theorem header_verdicts_last_queryHeader :
    Pgsql.classify (Session.queryHeader ++ [0x45, 0x4e, 0x44, 0]) = .request ∧
      Pgsql.classify (Session.queryHeader ++ [0x45, 0x4e, 0x44, 0x3b]) = .unknown ∧
      Dns.classify (Session.question ++ List.replicate 500 0) = .request ∧
      Dns.classify (Session.question ++ List.replicate 501 0) = .unknown ∧
      (Mysql.classify ([2, 0, 0, 0, 0x03] ++ [0x3f]) (Carry.empty.record [7])).messageType =
        .request := by
  rcases header_verdicts_last with ⟨-, -, -, -, -, hmysql, hdns, hpgsql⟩
  have hquestion : Dns.classify Session.question = .request := by decide
  have hdatagram : ∀ n, Dns.classify (Session.question ++ List.replicate n 0) =
      if 12 + n ≤ Dns.maxLength then .request else .unknown := by
    intro n
    rw [hdns _ _ (by rw [hquestion]; rfl), hquestion, List.length_append, List.length_replicate]
    rfl
  have hcommand := hmysql _ _ (Carry.lastSaw_record .empty [7]) (by decide)
  refine ⟨(hpgsql _ _ (by decide)).2 ?_, (hpgsql _ _ (by decide)).1 ?_, ?_, ?_, ?_⟩
  · rw [Pgsql.isOverturned_iff (by decide) (by decide)]
    decide
  · rw [Pgsql.isOverturned_iff (by decide) (by decide)]
    decide
  · rw [hdatagram]
    rfl
  · rw [hdatagram]
    rfl
  · exact (hcommand _ _ (by decide)).trans (by decide)

end FlowTrace
