import FlowTrace.Proofs.Checked.Detection
import FlowTrace.Proofs.Gluing

/-!
# Handover — what one payload leaves in the carry

After each payload the carry remembers it, and its mark says whether the header that it holds belongs
in front of the payload. The mark is set on the way to the verdict, by one signature of many, and
before the payload itself is remembered. Still it means one thing only: nothing was known of the
connection, the payload was taken for a Kafka request, and the payload before was the length of it.
The header is then the one that was seen before, because a request is too long to take its place.

The verdict does not depend on what was known before, unless that is MongoDB.
-/

namespace FlowTrace

/-! ## Kafka -/

namespace Kafka

variable (b : Bytes) (carry : Carry)

/-- A payload is a request, which uses the header if the header announces it, or nothing is seen. -/
theorem classify_cases :
    classify b carry = ⟨.request, carry.announcesBE b.length⟩ ∨
      classify b carry = ⟨.unknown, false⟩ := by
  unfold classify
  split
  · exact Or.inl rfl
  · exact Or.inr rfl

end Kafka

namespace Classifier

variable {e : Classifier} {b : Bytes} {carry : Carry} {latched : Protocol}

/-- A verdict for Kafka is that the payload is a request. -/
theorem infer_of_kafka (h : (e.infer b carry latched).1.protocol = .kafka) :
    (e.infer b carry latched).1 = ⟨.kafka, .request⟩ ∧
      Kafka.classify b carry = ⟨.request, carry.announcesBE b.length⟩ := by
  rcases infer_cases e b carry latched with hnone | ⟨p, m, -, -, hm, hverdict⟩
  · rw [hnone] at h
    cases h
  · rw [hverdict] at h ⊢
    obtain rfl : p = .kafka := h
    rcases Kafka.classify_cases b carry with hrequest | hunknown
    · have hsame : m = .request := by
        simpa [Protocol.recognise?, hrequest, MessageType.known?, MessageType.isKnown] using hm.symm
      exact ⟨by rw [hsame], hrequest⟩
    · simp [Protocol.recognise?, hunknown, MessageType.known?, MessageType.isKnown] at hm

/-! ## The mark -/

/-- The mark needs a connection of which nothing was known, a verdict for a Kafka request, and a
header that announces the payload. -/
theorem prepend_infer_iff :
    (e.infer b carry latched).2.prepend = true ↔
      latched = .unknown ∧ (e.infer b carry latched).1 = ⟨.kafka, .request⟩ ∧
        carry.announcesBE b.length = true := by
  have hprepend : (e.infer b carry latched).2.prepend =
      ((e.infer b carry latched).1.protocol == .kafka && (Kafka.classify b carry).usedCarry &&
        latched == .unknown) := rfl
  rw [hprepend]
  simp only [Bool.and_eq_true, beq_iff_eq]
  constructor
  · rintro ⟨⟨hkafka, hused⟩, hunknown⟩
    rcases infer_of_kafka hkafka with ⟨hverdict, hrequest⟩
    rw [hrequest] at hused
    exact ⟨hunknown, hverdict, hused⟩
  · rintro ⟨hunknown, hverdict, hannounces⟩
    have hkafka : (e.infer b carry latched).1.protocol = .kafka := by rw [hverdict]
    have hrequest := (infer_of_kafka hkafka).2
    exact ⟨⟨hkafka, by rw [hrequest]; exact hannounces⟩, hunknown⟩

/-- What is marked is a payload of eight bytes at least. -/
theorem le_length_of_prepend (h : (e.infer b carry latched).2.prepend = true) : 8 ≤ b.length := by
  rcases prepend_infer_iff.1 h with ⟨-, hverdict, hannounces⟩
  have hkafka : (e.infer b carry latched).1.protocol = .kafka := by rw [hverdict]
  have hused : (Kafka.classify b carry).usedCarry = true := by
    rw [(infer_of_kafka hkafka).2]
    exact hannounces
  exact (Kafka.of_usedCarry hused).2

/-! ## The memory -/

theorem lastSaw_infer : (e.infer b carry latched).2.LastSaw b := by
  rcases carry.lastSaw_record b with ⟨hlength, hheader⟩
  exact ⟨hlength, hheader⟩

end Classifier

/-! ## Both -/

/-- What the carry holds after a payload and its verdict, where `seen` is the payload before. -/
structure Carry.Handover (carry : Carry) (seen b : Bytes) (latched : Protocol) (verdict : Verdict)
    (after : Carry) : Prop where
  prepend_iff : after.prepend = true ↔
    latched = .unknown ∧ verdict = ⟨.kafka, .request⟩ ∧ Kafka.Announces seen b
  lengthHeader_of_prepend : after.prepend = true →
    8 ≤ b.length ∧ carry.header.toBytes = seen ∧ after.lengthHeader = some carry.header
  lengthHeader_eq_none : after.prepend = false → after.lengthHeader = none
  lastLength_eq : after.lastLength = b.length
  header_iff : after.header.toBytes = b ↔ b.length = 4
  header_eq : b.length ≠ 4 → after.header = carry.header

/-- Whatever a carry holds, some payload may have been the one before. -/
theorem Carry.exists_lastSaw (c : Carry) : ∃ seen, c.LastSaw seen := by
  by_cases hfour : c.lastLength = 4
  · refine ⟨c.header.toBytes, hfour, ?_⟩
    intro header hheader
    exact Option.some.inj hheader
  · have hlength : (List.replicate c.lastLength (0 : UInt8)).length ≠ 4 := by simpa using hfour
    refine ⟨List.replicate c.lastLength 0, by simp, ?_⟩
    intro header hheader
    rw [Header.ofBytes?_eq_none hlength] at hheader
    cases hheader

namespace Classifier

/-- After every payload the mark of the carry means one thing, and the header that is handed on is the
one that was seen before, although the mark is set while the signatures are still being tried. What
was known of the connection plays no other part, MongoDB apart. -/
theorem prepend_exactly (e : Classifier) (b : Bytes) (carry : Carry) (latched : Protocol) :
    Checked.infer b carry e latched = pure (e.infer b carry latched) ∧
      (∃ seen, carry.LastSaw seen) ∧
      (∀ seen, carry.LastSaw seen →
        carry.Handover seen b latched (e.infer b carry latched).1 (e.infer b carry latched).2) ∧
      (latched ≠ .mongo → (e.infer b carry latched).1 = (e.infer b carry .unknown).1) := by
  refine ⟨Checked.infer_eq b carry e latched, carry.exists_lastSaw, ?_, ?_⟩
  · intro seen hseen
    have hsaw : (e.infer b carry latched).2.LastSaw b := lastSaw_infer
    have hprepend : (e.infer b carry latched).2.prepend = true ↔
        latched = .unknown ∧ (e.infer b carry latched).1 = ⟨.kafka, .request⟩ ∧
          Kafka.Announces seen b := by
      rw [prepend_infer_iff, hseen.announcesBE_iff]
      rfl
    refine ⟨hprepend, ?_, ?_, hsaw.lastLength_eq, ⟨?_, hsaw.toBytes_header⟩, carry.header_record⟩
    · intro hmarked
      have hlong := le_length_of_prepend hmarked
      have hfour := (hprepend.1 hmarked).2.2.1
      -- The payload is too long to replace the header by itself.
      have hkept : (e.infer b carry latched).2.header = carry.header :=
        carry.header_record (by omega)
      refine ⟨hlong, hseen.toBytes_header hfour, ?_⟩
      rw [Carry.lengthHeader, if_pos hmarked, hkept]
    · intro hunmarked
      simp [Carry.lengthHeader, hunmarked]
    · intro hbytes
      rw [← hbytes]
      rfl
  · intro hmongo
    simp [infer, hmongo]

/-- A request after its length gets the length in front of it, whatever an older mark said, but not on a
connection that is known to speak something already. -/
theorem prepend_exactly_body :
    Carry.LastSaw ⟨4, ⟨0, 0, 0, 8⟩, true⟩ [0, 0, 0, 8] ∧
      (full.infer [0, 3, 0, 1, 0, 0, 0, 7] ⟨4, ⟨0, 0, 0, 8⟩, true⟩ .unknown).2.lengthHeader =
        some ⟨0, 0, 0, 8⟩ ∧
      (full.infer [0, 3, 0, 1, 0, 0, 0, 7] ⟨4, ⟨0, 0, 0, 8⟩, true⟩ .http).1 = ⟨.kafka, .request⟩ ∧
      (full.infer [0, 3, 0, 1, 0, 0, 0, 7] ⟨4, ⟨0, 0, 0, 8⟩, true⟩ .http).2.lengthHeader = none := by
  have hseen : Carry.LastSaw ⟨4, ⟨0, 0, 0, 8⟩, true⟩ [0, 0, 0, 8] := by
    refine ⟨rfl, ?_⟩
    intro header hheader
    exact Option.some.inj hheader
  have hannounces : Kafka.Announces [0, 0, 0, 8] [0, 3, 0, 1, 0, 0, 0, 7] := ⟨rfl, by decide⟩
  rcases prepend_exactly full [0, 3, 0, 1, 0, 0, 0, 7] ⟨4, ⟨0, 0, 0, 8⟩, true⟩ .unknown with
    ⟨-, -, hunknown, -⟩
  rcases prepend_exactly full [0, 3, 0, 1, 0, 0, 0, 7] ⟨4, ⟨0, 0, 0, 8⟩, true⟩ .http with
    ⟨-, -, hhttp, hsame⟩
  have hverdict : (full.infer [0, 3, 0, 1, 0, 0, 0, 7] ⟨4, ⟨0, 0, 0, 8⟩, true⟩ .unknown).1 =
      ⟨.kafka, .request⟩ := by
    decide +kernel
  have hmarked := (hunknown _ hseen).prepend_iff.2 ⟨rfl, hverdict, hannounces⟩
  have hunmarked : (full.infer [0, 3, 0, 1, 0, 0, 0, 7] ⟨4, ⟨0, 0, 0, 8⟩, true⟩ .http).2.prepend =
      false := by
    rw [← Bool.not_eq_true, (hhttp _ hseen).prepend_iff]
    rintro ⟨hknown, -⟩
    cases hknown
  refine ⟨hseen, ((hunknown _ hseen).lengthHeader_of_prepend hmarked).2.2, ?_,
    (hhttp _ hseen).lengthHeader_eq_none hunmarked⟩
  rw [hsame (by decide), hverdict]

end Classifier

end FlowTrace
