import FlowTrace.Proofs.Checked.Detection
import Mathlib.Data.List.Basic

/-!
# Precedence — the first enabled signature that matches

The verdict is that of the first enabled signature that matches, `Classifier.Finds`. A signature sees
the payload and the carry, but not which others are enabled or were tried before it. So what two sets
find together is the earlier one of what each finds alone, and the carry is left as by the one that
found it. What was not found could as well have been disabled, and bits of a mask that belong to no
signature are without effect.
-/

namespace FlowTrace

/-! ## Sets -/

namespace ProtocolSet

variable (s t : ProtocolSet) {p q : Protocol}

/-- The protocols of both sets. -/
def union : ProtocolSet :=
  ⟨s.bits ||| t.bits⟩

theorem union_comm : s.union t = t.union s := by
  rw [union, union, UInt32.or_comm]

theorem contains_union (p : Protocol) :
    (s.union t).contains p = (s.contains p || t.contains p) := by
  have hbits : (s.bits ||| t.bits) &&& bit p = s.bits &&& bit p ||| t.bits &&& bit p :=
    UInt32.eq_of_toBitVec_eq BitVec.and_or_distrib_right
  rw [Bool.eq_iff_iff]
  simp only [contains, union, hbits, bne_iff_ne, Bool.or_eq_true, ne_eq, UInt32.or_eq_zero_iff,
    not_and_or]

/-- The bits of different protocols are apart. -/
theorem bit_of_ne (h : q ≠ p) : ~~~bit p &&& bit q = bit q := by
  revert h
  cases p <;> cases q <;> decide

theorem contains_erase_self (p : Protocol) : (s.erase p).contains p = false := by
  have hbits : s.bits &&& ~~~bit p &&& bit p = 0 := by
    rw [UInt32.and_assoc, UInt32.and_comm (~~~bit p), UInt32.and_not_self, UInt32.and_zero]
  simp [contains, erase, hbits]

theorem contains_erase_of_ne (h : q ≠ p) : (s.erase p).contains q = s.contains q := by
  simp only [contains, erase, UInt32.and_assoc, bit_of_ne h]

theorem contains_of_erase (h : (s.erase p).contains q = true) : s.contains q = true := by
  by_cases hsame : q = p
  · subst hsame
    rw [contains_erase_self] at h
    cases h
  · rwa [contains_erase_of_ne s hsame] at h

/-- The bit of a protocol with a signature is among those of all of them. -/
theorem bit_of_mem_precedence (h : p ∈ Protocol.precedence) : all.bits &&& bit p = bit p := by
  revert p
  decide

/-- Two masks with the same bits for the protocols that have a signature. -/
theorem contains_congr {s t : ProtocolSet} (h : s.bits &&& all.bits = t.bits &&& all.bits)
    (hp : p ∈ Protocol.precedence) : s.contains p = t.contains p := by
  simp only [contains]
  rw [← bit_of_mem_precedence hp, ← UInt32.and_assoc, ← UInt32.and_assoc, h]

end ProtocolSet

/-! ## Ranks -/

namespace Protocol

/-- The place of a protocol in the order of the signatures. Those without a signature come last. -/
def rank (p : Protocol) : Nat :=
  precedence.idxOf p

variable {p q : Protocol}

theorem eq_of_rank_eq (hp : p ∈ precedence) (h : p.rank = q.rank) : p = q :=
  (List.idxOf_inj hp).1 h

theorem rank_le_unknown (p : Protocol) : p.rank ≤ unknown.rank := by
  cases p <;> decide

theorem rank_lt_unknown (hp : p ∈ precedence) : p.rank < unknown.rank := by
  revert p
  decide

theorem pairwise_precedence : precedence.Pairwise fun p q => p.rank < q.rank := by
  decide

/-- Only what is tried can be recognised. -/
theorem mem_precedence_of_recognise? {b : Bytes} {carry : Carry} {m : MessageType}
    (h : p.recognise? b carry = some m) : p ∈ precedence := by
  cases p with
  | unknown | http2 => cases h
  | _ => decide

end Protocol

/-! ## The first match -/

namespace Classifier

variable {b : Bytes} {carry : Carry} {p q : Protocol} {m m' : MessageType} {e : Classifier}
variable {s t : ProtocolSet}

/-- An enabled signature matches, and no enabled one before it does. -/
structure Finds (e : Classifier) (b : Bytes) (carry : Carry) (p : Protocol) (m : MessageType) :
    Prop where
  enabled : e.enabled.contains p = true
  recognised : p.recognise? b carry = some m
  first : ∀ q, q.rank < p.rank → e.enabled.contains q = true → q.recognise? b carry = none

/-- No enabled signature matches. -/
def FindsNothing (e : Classifier) (b : Bytes) (carry : Carry) : Prop :=
  ∀ q, e.enabled.contains q = true → q.recognise? b carry = none

theorem Finds.mem_precedence (h : e.Finds b carry p m) : p ∈ Protocol.precedence :=
  Protocol.mem_precedence_of_recognise? h.recognised

theorem scan_cases (e : Classifier) (b : Bytes) (carry : Carry) :
    (e.FindsNothing b carry ∧ e.scan b carry = .unknown) ∨
      ∃ p m, e.Finds b carry p m ∧ e.scan b carry = ⟨p, m⟩ := by
  unfold scan
  cases hfound : (Protocol.precedence.filter e.enabled.contains).findSome? fun p =>
      (p.recognise? b carry).map (Verdict.mk p) with
  | none =>
    refine Or.inl ⟨?_, rfl⟩
    intro q henabled
    cases hq : q.recognise? b carry with
    | none => rfl
    | some m =>
      have hmem := List.mem_filter.2 ⟨Protocol.mem_precedence_of_recognise? hq, henabled⟩
      have hnone := List.findSome?_eq_none_iff.1 hfound q hmem
      simp [hq] at hnone
  | some verdict =>
    rcases List.findSome?_eq_some_iff.1 hfound with ⟨before, p, after, hsplit, hp, hbefore⟩
    rcases Option.map_eq_some_iff.1 hp with ⟨m, hm, rfl⟩
    have hmem : p ∈ Protocol.precedence.filter e.enabled.contains := by simp [hsplit]
    refine Or.inr ⟨p, m, ⟨(List.mem_filter.1 hmem).2, hm, ?_⟩, rfl⟩
    intro q hrank henabled
    cases hq : q.recognise? b carry with
    | none => rfl
    | some m' =>
      -- A signature of a smaller rank stands before the one that was found.
      have hearlier := List.mem_filter.2 ⟨Protocol.mem_precedence_of_recognise? hq, henabled⟩
      have hpairwise := Protocol.pairwise_precedence.filter e.enabled.contains
      rw [hsplit] at hearlier hpairwise
      rcases List.mem_append.1 hearlier with hin | hin
      · have hnone := hbefore q hin
        simp [hq] at hnone
      · rcases List.mem_cons.1 hin with rfl | hlater
        · exact absurd hrank (Nat.lt_irrefl _)
        · have hafter := (List.pairwise_cons.1 (List.pairwise_append.1 hpairwise).2.1).1 q hlater
          exact absurd hrank (Nat.lt_asymm hafter)

theorem FindsNothing.scan_eq (h : e.FindsNothing b carry) : e.scan b carry = .unknown := by
  rcases scan_cases e b carry with ⟨-, hscan⟩ | ⟨p, m, hp, -⟩
  · exact hscan
  · have hnone := h p hp.enabled
    rw [hp.recognised] at hnone
    cases hnone

/-- There is one first match at most. -/
theorem Finds.scan_eq (h : e.Finds b carry p m) : e.scan b carry = ⟨p, m⟩ := by
  rcases scan_cases e b carry with ⟨hnone, -⟩ | ⟨q, m', hq, hscan⟩
  · have hp := hnone p h.enabled
    rw [h.recognised] at hp
    cases hp
  · have hsame : p = q := by
      rcases Nat.lt_trichotomy p.rank q.rank with hlt | heq | hlt
      · have hp := hq.first p hlt h.enabled
        rw [h.recognised] at hp
        cases hp
      · exact Protocol.eq_of_rank_eq h.mem_precedence heq
      · have hnone := h.first q hlt hq.enabled
        rw [hq.recognised] at hnone
        cases hnone
    subst hsame
    have hkind : m = m' := Option.some.inj (h.recognised.symm.trans hq.recognised)
    rw [hscan, hkind]

/-! ## Other sets -/

/-- A first match is still found where nothing that is enabled besides comes before it. -/
theorem Finds.union (h : Finds ⟨s⟩ b carry p m)
    (hother : ∀ q, q.rank < p.rank → t.contains q = true → q.recognise? b carry = none) :
    Finds ⟨s.union t⟩ b carry p m := by
  refine ⟨?_, h.recognised, ?_⟩
  · simp [ProtocolSet.contains_union, h.enabled]
  · intro q hrank henabled
    rw [ProtocolSet.contains_union, Bool.or_eq_true] at henabled
    rcases henabled with hs | ht
    · exact h.first q hrank hs
    · exact hother q hrank ht

theorem FindsNothing.union (hs : FindsNothing ⟨s⟩ b carry) (ht : FindsNothing ⟨t⟩ b carry) :
    FindsNothing ⟨s.union t⟩ b carry := by
  intro q henabled
  rw [ProtocolSet.contains_union, Bool.or_eq_true] at henabled
  rcases henabled with h | h
  · exact hs q h
  · exact ht q h

/-- Two sets find together the earlier one of what each finds alone. -/
theorem scan_union (s t : ProtocolSet) (b : Bytes) (carry : Carry) :
    scan ⟨s.union t⟩ b carry =
      if (scan ⟨s⟩ b carry).protocol.rank ≤ (scan ⟨t⟩ b carry).protocol.rank then
        scan ⟨s⟩ b carry else scan ⟨t⟩ b carry := by
  rcases scan_cases ⟨s⟩ b carry with ⟨hs, hscan⟩ | ⟨p, m, hs, hscan⟩ <;>
    rcases scan_cases ⟨t⟩ b carry with ⟨ht, hscan'⟩ | ⟨q, m', ht, hscan'⟩ <;>
    rw [hscan, hscan']
  · rw [(hs.union ht).scan_eq, if_pos (Nat.le_refl _)]
  · have hlast : ¬Protocol.unknown.rank ≤ q.rank :=
      Nat.not_le.2 (Protocol.rank_lt_unknown ht.mem_precedence)
    rw [ProtocolSet.union_comm, (ht.union fun r _ hr => hs r hr).scan_eq]
    exact (if_neg hlast).symm
  · rw [(hs.union fun r _ hr => ht r hr).scan_eq]
    exact (if_pos (Protocol.rank_le_unknown p)).symm
  · by_cases hrank : p.rank ≤ q.rank
    · have hfirst := hs.union fun r hr => ht.first r (Nat.lt_of_lt_of_le hr hrank)
      rw [hfirst.scan_eq, if_pos hrank]
    · have hlt : q.rank < p.rank := Nat.not_le.1 hrank
      have hfirst := ht.union fun r hr => hs.first r (Nat.lt_trans hr hlt)
      rw [ProtocolSet.union_comm, hfirst.scan_eq, if_neg hrank]

/-- What was not found could as well have been disabled. -/
theorem scan_erase (h : p ≠ (scan ⟨s⟩ b carry).protocol) :
    scan ⟨s.erase p⟩ b carry = scan ⟨s⟩ b carry := by
  rcases scan_cases ⟨s⟩ b carry with ⟨hnone, hscan⟩ | ⟨q, m, hq, hscan⟩
  · have hless : FindsNothing ⟨s.erase p⟩ b carry := fun r hr => hnone r (s.contains_of_erase hr)
    rw [hless.scan_eq, hscan]
  · rw [hscan] at h ⊢
    have hkept : (s.erase p).contains q = true := by
      rw [s.contains_erase_of_ne h.symm]
      exact hq.enabled
    have hless : Finds ⟨s.erase p⟩ b carry q m :=
      ⟨hkept, hq.recognised, fun r hrank hr => hq.first r hrank (s.contains_of_erase hr)⟩
    exact hless.scan_eq

theorem scan_congr (h : s.bits &&& ProtocolSet.all.bits = t.bits &&& ProtocolSet.all.bits) :
    scan ⟨s⟩ b carry = scan ⟨t⟩ b carry := by
  have hsame : Protocol.precedence.filter s.contains = Protocol.precedence.filter t.contains :=
    List.filter_congr fun p hp => ProtocolSet.contains_congr h hp
  simp only [scan, hsame]

/-! ## What is left of the carry -/

variable {latched : Protocol}

/-- The carry after a payload depends on the enabled signatures by the verdict only. -/
theorem infer_of_scan_eq {e e' : Classifier} (h : e.scan b carry = e'.scan b carry) :
    e.infer b carry latched = e'.infer b carry latched := by
  simp only [infer, h]

theorem infer_fst (hlatched : latched ≠ .mongo) :
    (e.infer b carry latched).1 = e.scan b carry := by
  simp [infer, hlatched]

/-- A verdict for a protocol is what is found, unless MongoDB was found before. -/
theorem infer_eq_iff (hp : p ≠ .unknown) : (e.infer b carry latched).1 = ⟨p, m⟩ ↔
    latched ≠ .mongo ∧ e.Finds b carry p m := by
  constructor
  · intro hverdict
    have hlatched : latched ≠ .mongo := by
      rintro rfl
      rw [infer_mongo] at hverdict
      cases hverdict
      exact hp rfl
    rw [infer_fst hlatched] at hverdict
    rcases scan_cases e b carry with ⟨-, hscan⟩ | ⟨q, m', hq, hscan⟩
    · rw [hscan] at hverdict
      cases hverdict
      exact absurd rfl hp
    · rw [hscan] at hverdict
      cases hverdict
      exact ⟨hlatched, hq⟩
  · rintro ⟨hlatched, hfinds⟩
    rw [infer_fst hlatched, hfinds.scan_eq]

/-- After MongoDB it does not matter what is enabled. -/
theorem infer_of_mongo (e e' : Classifier) : e.infer b carry .mongo = e'.infer b carry .mongo :=
  rfl

/-- Of two outcomes, the one whose protocol comes first. -/
def earlier (x y : Verdict × Carry) : Verdict × Carry :=
  if x.1.protocol.rank ≤ y.1.protocol.rank then x else y

theorem infer_union (s t : ProtocolSet) (b : Bytes) (carry : Carry) (latched : Protocol) :
    infer ⟨s.union t⟩ b carry latched =
      earlier (infer ⟨s⟩ b carry latched) (infer ⟨t⟩ b carry latched) := by
  by_cases hmongo : latched = .mongo
  · subst hmongo
    exact (if_pos (Nat.le_refl _)).symm
  · have hunion := scan_union s t b carry
    unfold earlier
    rw [infer_fst hmongo, infer_fst hmongo]
    split at hunion
    · rw [if_pos ‹_›]
      exact infer_of_scan_eq hunion
    · rw [if_neg ‹_›]
      exact infer_of_scan_eq hunion

/-- The same protocol is found with the same kind of message, and leaves the same carry. -/
theorem infer_of_protocol_eq
    (h : (infer ⟨s⟩ b carry latched).1.protocol = (infer ⟨t⟩ b carry latched).1.protocol) :
    infer ⟨s⟩ b carry latched = infer ⟨t⟩ b carry latched := by
  have hfirst := infer_union s t b carry latched
  have hsecond := infer_union t s b carry latched
  rw [ProtocolSet.union_comm] at hsecond
  rw [earlier, if_pos (Nat.le_of_eq (congrArg Protocol.rank h))] at hfirst
  rw [earlier, if_pos (Nat.le_of_eq (congrArg Protocol.rank h.symm))] at hsecond
  exact hfirst.symm.trans hsecond

theorem infer_erase (h : p ≠ (infer ⟨s⟩ b carry latched).1.protocol) :
    infer ⟨s.erase p⟩ b carry latched = infer ⟨s⟩ b carry latched := by
  by_cases hmongo : latched = .mongo
  · subst hmongo
    exact infer_of_mongo _ _
  · rw [infer_fst hmongo] at h
    exact infer_of_scan_eq (scan_erase h)

/-- For any two sets, what both enable together gives the earlier one of the two outcomes, although the
carry is marked while the signatures are still being tried, and there is only one outcome for each
protocol. So a verdict is unknown or that of an enabled signature, masks are told apart by the bits of
signatures only, and what was not found could as well have been disabled. -/
theorem union_law (s t : ProtocolSet) (b : Bytes) (carry : Carry) (latched : Protocol) :
    infer ⟨s.union t⟩ b carry latched =
        earlier (infer ⟨s⟩ b carry latched) (infer ⟨t⟩ b carry latched) ∧
      Checked.infer b carry ⟨s.union t⟩ latched = pure (infer ⟨s.union t⟩ b carry latched) ∧
      ((infer ⟨s⟩ b carry latched).1.protocol = (infer ⟨t⟩ b carry latched).1.protocol →
        infer ⟨s⟩ b carry latched = infer ⟨t⟩ b carry latched) ∧
      ((infer ⟨s⟩ b carry latched).1 = .unknown ∨
        (infer ⟨s⟩ b carry latched).1.protocol ∈ Protocol.precedence ∧
          s.contains (infer ⟨s⟩ b carry latched).1.protocol = true) ∧
      (infer ⟨s⟩ b carry latched).1.protocol ≠ .http2 ∧
      (s.bits &&& ProtocolSet.all.bits = t.bits &&& ProtocolSet.all.bits →
        infer ⟨s⟩ b carry latched = infer ⟨t⟩ b carry latched) ∧
      ∀ p, p ≠ (infer ⟨s⟩ b carry latched).1.protocol →
        infer ⟨s.erase p⟩ b carry latched = infer ⟨s⟩ b carry latched := by
  have hverdict := infer_cases ⟨s⟩ b carry latched
  refine ⟨infer_union s t b carry latched, Checked.infer_eq _ _ _ _, infer_of_protocol_eq, ?_, ?_,
    fun h => infer_of_scan_eq (scan_congr h), fun p h => infer_erase h⟩
  · rcases hverdict with hnone | ⟨p, m, hp, henabled, -, hfound⟩
    · exact Or.inl hnone
    · rw [hfound]
      exact Or.inr ⟨hp, henabled⟩
  · rcases hverdict with hnone | ⟨p, m, hp, -, -, hfound⟩
    · rw [hnone]
      decide
    · rw [hfound]
      rintro rfl
      exact absurd hp (by decide)

end Classifier

/-- A line that is a Redis value, and that a NATS server might send as well. -/
def Session.okLine : Bytes :=
  Bytes.ofChars ['+', 'O', 'K', '\r', '\n']

namespace Classifier

/-- Redis comes first where both are enabled. Disabling NATS, or setting the bits that belong to no
signature, makes no difference. -/
theorem union_law_okLine :
    (infer ⟨.ofList [.nats]⟩ Session.okLine .empty .unknown).1 = ⟨.nats, .response⟩ ∧
      (infer ⟨.ofList [.nats, .redis]⟩ Session.okLine .empty .unknown).1 = ⟨.redis, .unknown⟩ ∧
      (infer ⟨(ProtocolSet.ofList [.nats, .redis]).erase .nats⟩ Session.okLine .empty .unknown).1 =
        ⟨.redis, .unknown⟩ ∧
      (infer ⟨⟨0xffffe185⟩⟩ Session.okLine .empty .unknown).1 = ⟨.redis, .unknown⟩ := by
  have hnats : (infer ⟨.ofList [.nats]⟩ Session.okLine .empty .unknown).1 = ⟨.nats, .response⟩ := by
    decide +kernel
  have hredis : (infer ⟨.ofList [.redis]⟩ Session.okLine .empty .unknown).1 =
      ⟨.redis, .unknown⟩ := by
    decide +kernel
  have hboth : (infer ⟨.ofList [.nats, .redis]⟩ Session.okLine .empty .unknown).1 =
      ⟨.redis, .unknown⟩ := by
    have hunion := (union_law (.ofList [.nats]) (.ofList [.redis]) Session.okLine .empty .unknown).1
    have hlater : ¬Protocol.nats.rank ≤ Protocol.redis.rank := by decide
    rw [earlier, hnats, hredis, if_neg hlater] at hunion
    have hset : (ProtocolSet.ofList [.nats]).union (.ofList [.redis]) =
        .ofList [.nats, .redis] := by
      decide
    rw [← hset, hunion, hredis]
  rcases union_law (.ofList [.nats, .redis]) ⟨0xffffe185⟩ Session.okLine .empty .unknown with
    ⟨-, -, -, -, -, hmasked, herased⟩
  refine ⟨hnats, hboth, ?_, ?_⟩
  · rw [herased .nats (by rw [hboth]; decide), hboth]
  · rw [← hmasked (by decide), hboth]

end Classifier

end FlowTrace
