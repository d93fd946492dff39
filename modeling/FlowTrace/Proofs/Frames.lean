import FlowTrace.Proofs.Checked.Detection
import Mathlib.Data.List.Infix

/-!
# Frames — which payloads are taken for CQL

A frame begins with nine bytes. Here they are laid out one by one and described by numbers: a version
from 3 to 5, to which a server adds 128, flags below 16, and an opcode of the side that the version
byte tells. `Announces` is all of this, with the four bytes of the length left open.

The length is read with its sign and has an upper limit only. So a payload is taken for a frame if it
announces a small body, and also if it announces a negative one, `IsNegativeFrame`. Without the sign
that is a body of 2 GiB or more, although one of 10001 bytes is refused. Where no such length is
announced, small frames are taken and nothing else is.
-/

namespace FlowTrace

/-! ## Bytes and numbers -/

namespace Bytes

/-- What holds of the bytes that 256 numbers give holds of every byte. -/
theorem forall_byte {p : UInt8 → Prop} (h : ∀ i : Fin 256, p (UInt8.ofNat i)) (x : UInt8) : p x := by
  have hx := h ⟨x.toNat, x.toNat_lt⟩
  rwa [UInt8.ofNat_toNat] at hx

theorem highBit_iff (x : UInt8) : x &&& 0x80 ≠ 0 ↔ 128 ≤ x.toNat := by
  revert x
  exact forall_byte (by decide +kernel)

theorem highNibble_iff (x : UInt8) : x &&& 0xf0 = 0 ↔ x.toNat < 16 := by
  revert x
  exact forall_byte (by decide +kernel)

theorem toNat_lowBits (x : UInt8) : (x &&& 0x7f).toNat = x.toNat % 128 := by
  rw [UInt8.toNat_and]
  exact Nat.and_two_pow_sub_one_eq_mod x.toNat 7

end Bytes

namespace Cql

/-! ## The layout -/

/-- Who sent a frame. -/
inductive Side
  | client
  | server
  deriving DecidableEq, Repr

namespace Side

def isServer : Side → Bool
  | client => false
  | server => true

/-- What is added to the version. -/
def mark : Side → Nat
  | client => 0
  | server => 128

def opcodes : Side → List UInt8
  | client => clientOpcodes
  | server => serverOpcodes

def messageType : Side → MessageType
  | client => .request
  | server => .response

end Side

/-- The nine bytes in front of a body. -/
structure FrameHeader where
  version : UInt8
  flags : UInt8
  stream : UInt8 × UInt8
  opcode : UInt8
  length : Header
  deriving DecidableEq, Repr

namespace FrameHeader

def toBytes (h : FrameHeader) : Bytes :=
  [h.version, h.flags, h.stream.1, h.stream.2, h.opcode] ++ h.length.toBytes

/-- The header is one that the side may send, whatever length it announces. -/
structure IsFrom (h : FrameHeader) (side : Side) : Prop where
  version_ge : side.mark + 3 ≤ h.version.toNat
  version_le : h.version.toNat ≤ side.mark + 5
  flags_lt : h.flags.toNat < 16
  opcode_mem : h.opcode ∈ side.opcodes

/-- What is read of the header. -/
def frame (h : FrameHeader) : Frame where
  fromServer := h.version &&& 0x80 != 0
  version := h.version &&& 0x7f
  flags := h.flags
  opcode := h.opcode
  length := Bytes.signed32 h.length.toBytes.bigEndian

end FrameHeader

variable {b : Bytes} {side : Side} {h : FrameHeader}

/-- Nine bytes are enough for a header. -/
theorem exists_toBytes (hlong : 9 ≤ b.length) : ∃ h : FrameHeader, h.toBytes <+: b := by
  match b, hlong with
  | version :: flags :: s0 :: s1 :: opcode :: b0 :: b1 :: b2 :: b3 :: body, _ =>
    exact ⟨⟨version, flags, (s0, s1), opcode, ⟨b0, b1, b2, b3⟩⟩, body, rfl⟩

theorem read?_of_toBytes (hb : h.toBytes <+: b) : Frame.read? b = some h.frame := by
  rcases hb with ⟨body, rfl⟩
  rfl

theorem read?_eq_some_iff {f : Frame} :
    Frame.read? b = some f ↔ ∃ h : FrameHeader, h.toBytes <+: b ∧ h.frame = f := by
  constructor
  · intro hread
    have hlong : 9 ≤ b.length := by
      by_contra hshort
      have hnone : b.int32? 5 = none := Bytes.int32?_eq_none (by omega)
      simp [Frame.read?, hnone] at hread
    rcases exists_toBytes hlong with ⟨h, hb⟩
    rw [read?_of_toBytes hb] at hread
    exact ⟨h, hb, Option.some.inj hread⟩
  · rintro ⟨h, hb, rfl⟩
    exact read?_of_toBytes hb

/-- A well-formed frame counts if its opcode is one of the side that sent it. -/
theorem messageType_eq_iff (f : Frame) (side : Side) : f.messageType = side.messageType ↔
    f.wellFormed = true ∧ f.fromServer = side.isServer ∧ f.opcode ∈ side.opcodes := by
  cases side <;> unfold Frame.messageType <;> split_ifs <;>
    simp_all [Side.messageType, Side.isServer, Side.opcodes]

namespace FrameHeader

theorem length_frame (h : FrameHeader) :
    h.frame.length = Bytes.signed32 h.length.toBytes.bigEndian := by
  -- By `rfl` the remainders would be computed first.
  rw [frame]

theorem fromServer_frame (h : FrameHeader) :
    h.frame.fromServer = decide (128 ≤ h.version.toNat) := by
  rw [Bool.eq_iff_iff, decide_eq_true_iff, ← Bytes.highBit_iff]
  exact bne_iff_ne

theorem wellFormed_frame_iff (h : FrameHeader) : h.frame.wellFormed = true ↔
    3 ≤ h.version.toNat % 128 ∧ h.version.toNat % 128 ≤ 5 ∧ h.flags.toNat < 16 ∧
      h.frame.length ≤ maxLength := by
  have hversion : h.frame.version.toNat = h.version.toNat % 128 := Bytes.toNat_lowBits h.version
  have hflags : h.frame.flags &&& 0xf0 = 0 ↔ h.flags.toNat < 16 := Bytes.highNibble_iff h.flags
  simp only [Frame.wellFormed, Bool.and_eq_true, decide_eq_true_eq, beq_iff_eq,
    UInt8.le_iff_toNat_le, hversion, hflags, and_assoc]
  exact Iff.rfl

/-- Both halves of the version byte at once. -/
theorem version_iff (h : FrameHeader) (side : Side) :
    (3 ≤ h.version.toNat % 128 ∧ h.version.toNat % 128 ≤ 5 ∧
      h.frame.fromServer = side.isServer) ↔
      side.mark + 3 ≤ h.version.toNat ∧ h.version.toNat ≤ side.mark + 5 := by
  have hbyte := h.version.toNat_lt
  rw [h.fromServer_frame]
  cases side <;> simp [Side.mark, Side.isServer] <;> omega

/-- The masks of the signature ask for what the side may send. -/
theorem messageType_frame_iff (h : FrameHeader) (side : Side) :
    h.frame.messageType = side.messageType ↔ h.IsFrom side ∧ h.frame.length ≤ maxLength := by
  have hversion := h.version_iff side
  rw [messageType_eq_iff, wellFormed_frame_iff]
  constructor
  · rintro ⟨⟨hmin, hmax, hflags, hlength⟩, hserver, hopcode⟩
    rcases hversion.1 ⟨hmin, hmax, hserver⟩ with ⟨hge, hle⟩
    exact ⟨⟨hge, hle, hflags, hopcode⟩, hlength⟩
  · rintro ⟨hfrom, hlength⟩
    rcases hversion.2 ⟨hfrom.version_ge, hfrom.version_le⟩ with ⟨hmin, hmax, hserver⟩
    exact ⟨⟨hmin, hmax, hfrom.flags_lt, hlength⟩, hserver, hfrom.opcode_mem⟩

/-- A payload starts with one header at most. -/
theorem eq_of_toBytes {h h' : FrameHeader} (hb : h.toBytes <+: b) (hb' : h'.toBytes <+: b) :
    h = h' := by
  have hsame : h.toBytes = h'.toBytes := by
    have hlength : h.toBytes.length = h'.toBytes.length := rfl
    exact (List.prefix_of_prefix_length_le hb hb' hlength.le).eq_of_length hlength
  rcases h with ⟨version, flags, ⟨s0, s1⟩, opcode, ⟨b0, b1, b2, b3⟩⟩
  rcases h' with ⟨version', flags', ⟨s0', s1'⟩, opcode', ⟨b0', b1', b2', b3'⟩⟩
  simpa [toBytes, Header.toBytes, and_assoc] using hsame

end FrameHeader

/-! ## What is announced -/

/-- The payload starts with a header of the side. Its length is `n` if no bit is taken for a sign. -/
def Announces (b : Bytes) (side : Side) (n : Nat) : Prop :=
  ∃ h : FrameHeader, h.toBytes <+: b ∧ h.IsFrom side ∧ h.length.toBytes.bigEndian = n

/-- What should be taken for a frame: the length is neither too large nor negative. -/
def IsSmallFrame (b : Bytes) (side : Side) : Prop :=
  ∃ n, Announces b side n ∧ 0 ≤ Bytes.signed32 n ∧ Bytes.signed32 n ≤ maxLength

/-- What is taken for a frame besides. -/
def IsNegativeFrame (b : Bytes) (side : Side) : Prop :=
  ∃ n, Announces b side n ∧ Bytes.signed32 n < 0

theorem Announces.signed32_le_iff {n : Nat} (ha : Announces b side n) :
    Bytes.signed32 n ≤ maxLength ↔ n ≤ 10000 ∨ 2147483648 ≤ n := by
  rcases ha with ⟨h, -, -, rfl⟩
  have hmax : maxLength = 10000 := rfl
  have hword := h.length.bigEndian_lt
  rw [Bytes.signed32_eq hword, hmax]
  split <;> omega

/-- Neither the side nor the length is open. -/
theorem Announces.unique {side' : Side} {n n' : Nat} (ha : Announces b side n)
    (ha' : Announces b side' n') : side = side' ∧ n = n' := by
  rcases ha with ⟨h, hb, hfrom, rfl⟩
  rcases ha' with ⟨h', hb', hfrom', rfl⟩
  obtain rfl := FrameHeader.eq_of_toBytes hb hb'
  have hge := hfrom.version_ge
  have hle := hfrom.version_le
  have hge' := hfrom'.version_ge
  have hle' := hfrom'.version_le
  refine ⟨?_, rfl⟩
  cases side <;> cases side' <;> simp only [Side.mark] at * <;> omega

theorem classify_eq_iff : classify b = side.messageType ↔
    ∃ n, Announces b side n ∧ Bytes.signed32 n ≤ maxLength := by
  have hunknown : side.messageType ≠ .unknown := by cases side <;> decide
  constructor
  · intro hsame
    cases hread : Frame.read? b with
    | none =>
      rw [classify, hread] at hsame
      exact absurd hsame.symm hunknown
    | some f =>
      rcases read?_eq_some_iff.1 hread with ⟨h, hb, rfl⟩
      rw [classify, hread] at hsame
      rcases (h.messageType_frame_iff side).1 hsame with ⟨hfrom, hlength⟩
      rw [h.length_frame] at hlength
      exact ⟨h.length.toBytes.bigEndian, ⟨h, hb, hfrom, rfl⟩, hlength⟩
  · rintro ⟨n, ⟨h, hb, hfrom, rfl⟩, hlength⟩
    rw [← h.length_frame] at hlength
    rw [classify, read?_of_toBytes hb]
    exact (h.messageType_frame_iff side).2 ⟨hfrom, hlength⟩

theorem isKnown_iff (m : MessageType) : m.isKnown = true ↔ ∃ side : Side, m = side.messageType := by
  constructor
  · intro hknown
    cases m with
    | unknown => cases hknown
    | request => exact ⟨.client, rfl⟩
    | response => exact ⟨.server, rfl⟩
  · rintro ⟨side, rfl⟩
    cases side <;> rfl

theorem classify_eq_iff_small_or_negative : classify b = side.messageType ↔
    IsSmallFrame b side ∨ IsNegativeFrame b side := by
  rw [classify_eq_iff]
  constructor
  · rintro ⟨n, ha, hmax⟩
    by_cases hneg : Bytes.signed32 n < 0
    · exact Or.inr ⟨n, ha, hneg⟩
    · exact Or.inl ⟨n, ha, Int.not_lt.1 hneg, hmax⟩
  · have hmin : 0 ≤ maxLength := by decide
    rintro (⟨n, ha, -, hmax⟩ | ⟨n, ha, hneg⟩)
    · exact ⟨n, ha, hmax⟩
    · exact ⟨n, ha, Int.le_trans (Int.le_of_lt hneg) hmin⟩

theorem IsSmallFrame.not_negative {side' : Side} (hsmall : IsSmallFrame b side) :
    ¬IsNegativeFrame b side' := by
  rintro ⟨n', ha', hneg⟩
  rcases hsmall with ⟨n, ha, hnonneg, -⟩
  obtain ⟨-, rfl⟩ := ha.unique ha'
  exact absurd hneg (Int.not_lt.2 hnonneg)

theorem small_only_iff : (∀ side : Side, classify b = side.messageType ↔ IsSmallFrame b side) ↔
    ∀ side, ¬IsNegativeFrame b side := by
  constructor
  · intro hsmall side hneg
    have htaken : classify b = side.messageType :=
      classify_eq_iff_small_or_negative.2 (Or.inr hneg)
    exact ((hsmall side).1 htaken).not_negative hneg
  · intro hnone side
    rw [classify_eq_iff_small_or_negative]
    exact or_iff_left (hnone side)

theorem Announces.isKnown_classify_iff {n : Nat} (ha : Announces b side n) :
    (classify b).isKnown = true ↔ n ≤ 10000 ∨ 2147483648 ≤ n := by
  rw [isKnown_iff, ← ha.signed32_le_iff]
  constructor
  · rintro ⟨side', hsame⟩
    rcases classify_eq_iff.1 hsame with ⟨n', ha', hmax⟩
    obtain ⟨-, rfl⟩ := ha.unique ha'
    exact hmax
  · intro hmax
    exact ⟨side, classify_eq_iff.2 ⟨n, ha, hmax⟩⟩

/-- A payload is taken for a frame of a side exactly if it starts with a header of that side that
announces a small body or a negative one. So small frames are all that is taken where no negative
length is announced, and only there. Without a sign, a header is taken up to 10000 and from 2 GiB. -/
theorem frames_exactly (b : Bytes) :
    (∀ side : Side, classify b = side.messageType ↔ IsSmallFrame b side ∨ IsNegativeFrame b side) ∧
      ((classify b).isKnown = true ↔ ∃ side, IsSmallFrame b side ∨ IsNegativeFrame b side) ∧
      ((∀ side : Side, classify b = side.messageType ↔ IsSmallFrame b side) ↔
        ∀ side, ¬IsNegativeFrame b side) ∧
      ∀ side n, Announces b side n →
        ((classify b).isKnown = true ↔ n ≤ 10000 ∨ 2147483648 ≤ n) := by
  refine ⟨fun _ => classify_eq_iff_small_or_negative, ?_, small_only_iff, ?_⟩
  · rw [isKnown_iff]
    exact exists_congr fun _ => classify_eq_iff_small_or_negative
  · intro side n ha
    exact ha.isKnown_classify_iff

end Cql

/-- A query of a client, up to its body. -/
def Session.queryFrame (length : Header) : Bytes :=
  [0x04, 0x00, 0x00, 0x01, 0x07] ++ length.toBytes

namespace Cql

theorem announces_queryFrame (length : Header) :
    Announces (Session.queryFrame length) .client length.toBytes.bigEndian := by
  refine ⟨⟨0x04, 0x00, (0x00, 0x01), 0x07, length⟩, List.prefix_rfl, ?_, rfl⟩
  constructor <;> simp [Side.mark, Side.opcodes, clientOpcodes]

/-- Of the queries that announce 10000 bytes, one more, and 2 GiB, the second one is refused. -/
theorem frames_exactly_queryFrame :
    (classify (Session.queryFrame ⟨0x00, 0x00, 0x27, 0x10⟩)).isKnown = true ∧
      (classify (Session.queryFrame ⟨0x00, 0x00, 0x27, 0x11⟩)).isKnown = false ∧
      (classify (Session.queryFrame ⟨0x80, 0x00, 0x00, 0x00⟩)).isKnown = true := by
  have hlength : ∀ length : Header, (classify (Session.queryFrame length)).isKnown = true ↔
      length.toBytes.bigEndian ≤ 10000 ∨ 2147483648 ≤ length.toBytes.bigEndian := fun length =>
    (frames_exactly (Session.queryFrame length)).2.2.2 .client _ (announces_queryFrame length)
  refine ⟨?_, ?_, ?_⟩
  · rw [hlength]
    decide
  · rw [← Bool.not_eq_true, hlength]
    decide
  · rw [hlength]
    decide

/-- A query is taken for a request although the length it announces is minus one. -/
theorem negative_length_taken :
    classify (Session.queryFrame ⟨0xff, 0xff, 0xff, 0xff⟩) = .request ∧
      ¬∃ side, IsSmallFrame (Session.queryFrame ⟨0xff, 0xff, 0xff, 0xff⟩) side := by
  refine ⟨by decide, ?_⟩
  rintro ⟨side, n, ha, hnonneg, -⟩
  obtain ⟨-, rfl⟩ := (announces_queryFrame ⟨0xff, 0xff, 0xff, 0xff⟩).unique ha
  exact absurd hnonneg (by decide)

end Cql

end FlowTrace
