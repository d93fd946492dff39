import FlowTrace.Proofs.Chronicle
import FlowTrace.Proofs.Sampling

/-!
# Gluing — a message whose header came before, and the whole message

MySQL and Kafka put a length of four bytes in front of each message, and a server may read the four
bytes with one call and the message with the next. The carry remembers the four bytes. If they
announce the length of the payload, the payload is taken for the message, and it is taken as if the
four bytes stood in front of it: `Glues`.

The two protocols encode the length differently. MySQL has the least significant byte first, and
only three of the four bytes are the length proper, while the fourth one is a sequence number. As the
carry compares all four, the fourth one is zero for every length that a command may have. Kafka has
the most significant byte first, with a sign.
-/

namespace FlowTrace

/-! ## The payload before -/

/-- The carry remembers this payload as the one before: its length, and its bytes if there are four
of them. -/
structure Carry.LastSaw (c : Carry) (b : Bytes) : Prop where
  lastLength_eq : c.lastLength = b.length
  header_eq : ∀ header, Header.ofBytes? b = some header → c.header = header

namespace Carry

variable {c : Carry} {b : Bytes}

theorem lastSaw_empty : empty.LastSaw [] := by
  refine ⟨rfl, ?_⟩
  intro header hheader
  cases hheader

/-- A fresh carry announces nothing. -/
@[simp] theorem announcesLE_empty (length : Nat) : empty.announcesLE length = false :=
  rfl

@[simp] theorem announcesBE_empty (length : Nat) : empty.announcesBE length = false :=
  rfl

theorem lastSaw_record (c : Carry) (b : Bytes) : (c.record b).LastSaw b := by
  refine ⟨rfl, ?_⟩
  intro header hheader
  simp [record, hheader]

/-- The header of four bytes that were seen. -/
theorem LastSaw.toBytes_header (h : c.LastSaw b) (hlength : b.length = 4) :
    c.header.toBytes = b := by
  rcases Header.exists_ofBytes? hlength with ⟨header, hheader⟩
  rw [h.header_eq header hheader]
  exact (Header.ofBytes?_eq_some_iff.1 hheader).symm

theorem LastSaw.announcesLE_iff (h : c.LastSaw b) (length : Nat) :
    c.announcesLE length = true ↔ b.length = 4 ∧ b.littleEndian = length := by
  simp only [announcesLE, h.lastLength_eq, Bool.and_eq_true, beq_iff_eq]
  refine and_congr_right fun hlength => ?_
  rw [h.toBytes_header hlength]

theorem LastSaw.announcesBE_iff (h : c.LastSaw b) (length : Nat) :
    c.announcesBE length = true ↔ b.length = 4 ∧ Bytes.signed32 b.bigEndian = (length : Int) := by
  simp only [announcesBE, h.lastLength_eq, Bool.and_eq_true, beq_iff_eq]
  refine and_congr_right fun hlength => ?_
  rw [h.toBytes_header hlength]

end Carry

/-- A signature takes a payload after the header that announces it as it takes both in one, unless
the carry makes a header for both of what came before. A payload that was not announced is taken as
it is on a fresh connection. -/
structure Glues (classify : Bytes → Carry → Match) (Announces : Bytes → Bytes → Prop)
    (isMessage : Bytes → Bool) : Prop where
  request_iff : ∀ {header b : Bytes} {carry : Carry}, carry.LastSaw header → Announces header b →
    ((classify b carry).messageType = .request ↔ isMessage b = true)
  messageType_eq : ∀ {header b seen : Bytes} {carry whole : Carry}, carry.LastSaw header →
    Announces header b → whole.LastSaw seen → ¬Announces seen (header ++ b) →
      (classify b carry).messageType = (classify (header ++ b) whole).messageType
  usedCarry_iff : ∀ {header b seen : Bytes} {carry whole : Carry}, carry.LastSaw header →
    Announces header b → whole.LastSaw seen → ¬Announces seen (header ++ b) →
      ((classify b carry).usedCarry = true ↔
        (classify (header ++ b) whole).messageType = .request)
  of_not_announced : ∀ {seen b : Bytes} {carry : Carry}, carry.LastSaw seen → ¬Announces seen b →
    classify b carry = classify b .empty ∧ (classify b carry).usedCarry = false

/-- It is enough to know both answers of what the payload holds. -/
theorem Glues.of_eq {classify : Bytes → Carry → Match} {Announces : Bytes → Bytes → Prop}
    {isMessage : Bytes → Bool}
    (hcarried : ∀ {header b : Bytes} {carry : Carry}, carry.LastSaw header → Announces header b →
      classify b carry = if isMessage b then ⟨.request, true⟩ else ⟨.unknown, false⟩)
    (hglued : ∀ {header b : Bytes}, Announces header b →
      classify (header ++ b) .empty = if isMessage b then ⟨.request, false⟩ else ⟨.unknown, false⟩)
    (hfresh : ∀ {seen b : Bytes} {carry : Carry}, carry.LastSaw seen → ¬Announces seen b →
      classify b carry = classify b .empty ∧ (classify b carry).usedCarry = false) :
    Glues classify Announces isMessage := by
  refine ⟨?_, ?_, ?_, hfresh⟩
  · intro header b carry hsaw hannounces
    rw [hcarried hsaw hannounces]
    cases isMessage b <;> simp
  · intro header b seen carry whole hsaw hannounces hseen hother
    rw [hcarried hsaw hannounces, (hfresh hseen hother).1, hglued hannounces]
    cases isMessage b <;> rfl
  · intro header b seen carry whole hsaw hannounces hseen hother
    rw [hcarried hsaw hannounces, (hfresh hseen hother).1, hglued hannounces]
    cases isMessage b <;> simp

/-! ## MySQL -/

namespace Mysql

/-- Four bytes, of which the least significant one comes first. -/
def Announces (header b : Bytes) : Prop :=
  header.length = 4 ∧ header.littleEndian = b.length

/-- The payload starts with a command, and is not too long for one. -/
def isCommand (b : Bytes) : Bool :=
  b.length ≤ maxLength && b.head?.any commands.contains

/-- A length that a command may have leaves no room in the fourth byte, so the sequence number of the
packet is zero, and the other three are the length. -/
theorem isCommand_packet {header : Header} {b : Bytes} {command : UInt8}
    (hannounces : header.toBytes.littleEndian = b.length) (hhead : b.head? = some command) :
    (Packet.mk header command).isCommand = isCommand b := by
  have hpositive : 0 < b.length := by
    cases b with
    | nil => cases hhead
    | cons _ _ => simp
  have hzero : (header.b3 = 0) ↔ header.b3.toNat = 0 := by
    rw [← UInt8.toNat_inj]
    rfl
  -- Were the fourth byte not zero, the length would be larger than any that is allowed.
  have hlength : header.b3 = 0 ∧ (Packet.mk header command).length ≠ 0 ∧
      (Packet.mk header command).length ≤ maxLength ↔ b.length ≤ maxLength := by
    simp only [Header.toBytes, Bytes.littleEndian, List.foldr_cons, List.foldr_nil] at hannounces
    simp only [Packet.length, Bytes.littleEndian, List.foldr_cons, List.foldr_nil, maxLength, hzero]
    omega
  rw [Bool.eq_iff_iff]
  simp only [Packet.isCommand, Packet.sequence, isCommand, hhead, Option.any_some, ← hlength,
    Bool.and_eq_true, beq_iff_eq, bne_iff_ne, decide_eq_true_eq, ne_eq, and_assoc]

/-- Either reading finds the header that announces the payload, and the first byte of it. -/
theorem isCommand_read? {header : Header} {b : Bytes}
    (hannounces : header.toBytes.littleEndian = b.length) :
    (b.head?.map (Packet.mk header)).any Packet.isCommand = isCommand b := by
  cases hhead : b.head? with
  | none => simp [isCommand, hhead]
  | some command => exact isCommand_packet hannounces hhead

theorem classify_carried {header b : Bytes} {carry : Carry} (hsaw : carry.LastSaw header)
    (hannounces : Announces header b) :
    classify b carry = if isCommand b then ⟨.request, true⟩ else ⟨.unknown, false⟩ := by
  have hcarry : carry.announcesLE b.length = true := (hsaw.announcesLE_iff _).2 hannounces
  rcases hannounces with ⟨hfour, hlength⟩
  rw [← hsaw.toBytes_header hfour] at hlength
  simp only [classify, Packet.read?, hcarry, if_true, isCommand_read? hlength]

theorem classify_glued {header b : Bytes} (hannounces : Announces header b) :
    classify (header ++ b) .empty =
      if isCommand b then ⟨.request, false⟩ else ⟨.unknown, false⟩ := by
  rcases hannounces with ⟨hfour, hlength⟩
  rcases Header.exists_ofBytes? hfour with ⟨found, hfound⟩
  obtain rfl := Header.ofBytes?_eq_some_iff.1 hfound
  have hread : Packet.read? (found.toBytes ++ b) .empty = b.head?.map (Packet.mk found) := by
    simp only [Packet.read?, Carry.announcesLE_empty, Bool.false_eq_true, if_false, Header.toBytes,
      List.cons_append, List.nil_append]
    cases b <;> rfl
  simp only [classify, hread, Carry.announcesLE_empty, isCommand_read? hlength]

theorem classify_of_not_announced {seen b : Bytes} {carry : Carry} (hsaw : carry.LastSaw seen)
    (hother : ¬Announces seen b) :
    classify b carry = classify b .empty ∧ (classify b carry).usedCarry = false := by
  have hcarry : carry.announcesLE b.length = false := by
    rwa [← Bool.not_eq_true, hsaw.announcesLE_iff]
  refine ⟨?_, ?_⟩
  · simp only [classify, Packet.read?, hcarry, Carry.announcesLE_empty, Bool.false_eq_true, if_false]
  · simp only [classify, hcarry]
    split <;> rfl

end Mysql

/-! ## Kafka -/

namespace Kafka

/-- Four bytes, of which the most significant one comes first, with a sign. -/
def Announces (header b : Bytes) : Prop :=
  header.length = 4 ∧ Bytes.signed32 header.bigEndian = (b.length : Int)

/-- The payload starts with the header of a request. -/
def isRequest (b : Bytes) : Bool :=
  (RequestHeader.read? b).any RequestHeader.wellFormed

theorem classify_carried {header b : Bytes} {carry : Carry} (hsaw : carry.LastSaw header)
    (hannounces : Announces header b) :
    classify b carry = if isRequest b then ⟨.request, true⟩ else ⟨.unknown, false⟩ := by
  have hcarry : carry.announcesBE b.length = true := (hsaw.announcesBE_iff _).2 hannounces
  simp only [classify, body?, hcarry, if_true, Option.bind_some]
  rfl

theorem classify_glued {header b : Bytes} (hannounces : Announces header b) :
    classify (header ++ b) .empty =
      if isRequest b then ⟨.request, false⟩ else ⟨.unknown, false⟩ := by
  rcases hannounces with ⟨hfour, hlength⟩
  -- The size is in front, and the payload is what it says.
  have hsize : (header ++ b).int32? 0 = some (b.length : Int) := by
    have hfield : header.field? 0 4 = some header :=
      Bytes.field?_eq_some_iff.2 ⟨by simp [← hfour], hfour⟩
    simp [Bytes.int32?, Bytes.word32?, Bytes.field?_append hfield b, hlength]
  have hbody : body? (header ++ b) .empty = some b := by
    have hdrop : (header ++ b).drop 4 = b := by simp [← hfour]
    have hsum : (b.length : Int) + 4 = ((header ++ b).length : Int) := by
      rw [List.length_append, hfour]
      omega
    simp only [body?, Carry.announcesBE_empty, hsize, Option.any_some, hsum, beq_self_eq_true, hdrop,
      Bool.false_eq_true, if_false, if_true]
  simp only [classify, hbody, Carry.announcesBE_empty, Option.bind_some]
  rfl

theorem classify_of_not_announced {seen b : Bytes} {carry : Carry} (hsaw : carry.LastSaw seen)
    (hother : ¬Announces seen b) :
    classify b carry = classify b .empty ∧ (classify b carry).usedCarry = false := by
  have hcarry : carry.announcesBE b.length = false := by
    rwa [← Bool.not_eq_true, hsaw.announcesBE_iff]
  refine ⟨?_, ?_⟩
  · simp only [classify, body?, hcarry, Carry.announcesBE_empty, Bool.false_eq_true, if_false]
  · simp only [classify, hcarry]
    split <;> rfl

end Kafka

/-! ## Both -/

/-- Both signatures take a message behind its length, and after its length was seen, alike. -/
theorem split_header_glues :
    Glues Mysql.classify Mysql.Announces Mysql.isCommand ∧
      Glues Kafka.classify Kafka.Announces Kafka.isRequest := by
  refine ⟨?_, ?_⟩
  · exact .of_eq Mysql.classify_carried Mysql.classify_glued Mysql.classify_of_not_announced
  · exact .of_eq Kafka.classify_carried Kafka.classify_glued Kafka.classify_of_not_announced

/-- A query of MySQL and a request of Kafka are recognised behind their lengths and after them. If
the length of the request was encoded as MySQL has it, it is not taken for one. -/
theorem split_header_glues_seen :
    Mysql.Announces [2, 0, 0, 0] [0x03, 0x3f] ∧
      (Mysql.classify [0x03, 0x3f] (Carry.empty.record [2, 0, 0, 0])).messageType = .request ∧
      (Mysql.classify [2, 0, 0, 0, 0x03, 0x3f] .empty).messageType = .request ∧
      Kafka.Announces [0, 0, 0, 8] [0, 3, 0, 1, 0, 0, 0, 7] ∧
      (Kafka.classify [0, 3, 0, 1, 0, 0, 0, 7] (Carry.empty.record [0, 0, 0, 8])).usedCarry = true ∧
      (Kafka.classify [0, 0, 0, 8, 0, 3, 0, 1, 0, 0, 0, 7] .empty).messageType = .request ∧
      (Kafka.classify [0, 3, 0, 1, 0, 0, 0, 7] (Carry.empty.record [8, 0, 0, 0])).usedCarry =
        false := by
  rcases split_header_glues with ⟨hmysql, hkafka⟩
  have hquery : Mysql.Announces [2, 0, 0, 0] [0x03, 0x3f] := ⟨rfl, rfl⟩
  have hrequest : Kafka.Announces [0, 0, 0, 8] [0, 3, 0, 1, 0, 0, 0, 7] := ⟨rfl, by decide⟩
  have hother : ¬Kafka.Announces [8, 0, 0, 0] [0, 3, 0, 1, 0, 0, 0, 7] := by
    rintro ⟨-, hlength⟩
    exact absurd hlength (by decide)
  have hfresh : ∀ b : Bytes, ¬Mysql.Announces [] b ∧ ¬Kafka.Announces [] b := by
    intro b
    exact ⟨fun h => absurd h.1 (by decide), fun h => absurd h.1 (by decide)⟩
  have hcommand := (hmysql.request_iff (Carry.lastSaw_record .empty _) hquery).2 (by decide)
  have hglued : (Kafka.classify [0, 0, 0, 8, 0, 3, 0, 1, 0, 0, 0, 7] .empty).messageType = .request := by
    decide
  refine ⟨hquery, hcommand, ?_, hrequest, ?_, hglued, ?_⟩
  · rw [← hcommand]
    exact (hmysql.messageType_eq (Carry.lastSaw_record _ _) hquery Carry.lastSaw_empty
      (hfresh _).1).symm
  · exact (hkafka.usedCarry_iff (Carry.lastSaw_record _ _) hrequest Carry.lastSaw_empty
      (hfresh _).2).2 hglued
  · exact (hkafka.of_not_announced (Carry.lastSaw_record _ _) hother).2

end FlowTrace
