import FlowTrace.Proofs.Chronicle

/-!
# Sampling — what a carry remembers is the sample before

A connection is classified by the samples of the transfers that it takes. Each sample is a leading
part of what its transfer has moved, and the carry remembers the last one: its length, and its bytes
if there were four of them. Files, and transfers without a sample, go by unnoticed.
-/

namespace FlowTrace

theorem Header.exists_ofBytes? {b : Bytes} (h : b.length = 4) :
    ∃ header, ofBytes? b = some header := by
  match b, h with
  | [b0, b1, b2, b3], _ => exact ⟨⟨b0, b1, b2, b3⟩, rfl⟩

theorem Header.ofBytes?_eq_none {b : Bytes} (h : b.length ≠ 4) : ofBytes? b = none := by
  cases hfour : ofBytes? b with
  | none => rfl
  | some header =>
    rw [ofBytes?_eq_some_iff.1 hfour] at h
    exact absurd rfl h

/-- A payload that is no header leaves the header that is held. -/
theorem Carry.header_record {b : Bytes} (c : Carry) (h : b.length ≠ 4) :
    (c.record b).header = c.header := by
  simp [record, Header.ofBytes?_eq_none h]

/-! ## Samples -/

namespace Payload

/-- The staged bytes, over all segments. -/
def bytes : Payload → Bytes
  | flat buffer => buffer
  | segments parts => parts.flatten

/-- The first segment that is not empty begins what all segments hold together. -/
theorem isPrefix_of_find? {parts : List Bytes} {count : Nat} {sample : Bytes}
    (h : (parts.map (·.take count)).find? (fun part => !part.isEmpty) = some sample) :
    sample <+: parts.flatten.take count := by
  induction parts with
  | nil => cases h
  | cons part parts ih =>
    rw [List.map_cons, List.find?_cons] at h
    -- The first segment is the sample, unless it is empty and the others are searched.
    cases hempty : (part.take count).isEmpty with
    | false =>
      simp only [hempty, Bool.not_false, Option.some.injEq] at h
      rw [← h, List.flatten_cons, List.take_append]
      exact List.prefix_append _ _
    | true =>
      simp only [hempty, Bool.not_true] at h
      have hrest := ih h
      have hnil : part.take count = [] := List.isEmpty_iff.1 hempty
      rcases List.take_eq_nil_iff.1 hnil with hcount | hpart
      · -- Nothing moved, so there is nothing to find.
        subst hcount
        have hsome := List.find?_some h
        have hmem := List.mem_of_find?_eq_some h
        simp only [List.take_zero, List.mem_map] at hmem
        rcases hmem with ⟨_, _, rfl⟩
        simp at hsome
      · simpa [hpart] using hrest

/-- A sample begins what the transfer has moved. -/
theorem isPrefix_of_sample? {p : Payload} {limits : ChunkLimits} {count : Nat} {sample : Bytes}
    (h : p.sample? limits count = some sample) : sample <+: p.bytes.take count := by
  cases p with
  | flat buffer =>
    rw [← Option.some.inj h]
    exact List.prefix_refl _
  | segments parts =>
    have hleading := isPrefix_of_find? h
    have hsplit : parts.flatten = (parts.take limits.inferenceSegments).flatten ++
        (parts.drop limits.inferenceSegments).flatten := by
      rw [← List.flatten_append, List.take_append_drop]
    have hwhole : (parts.take limits.inferenceSegments).flatten.take count <+:
        parts.flatten.take count := by
      rw [hsplit, List.take_append]
      exact List.prefix_append _ _
    exact hleading.trans hwhole

end Payload

namespace Connection

variable (c : Connection) (config : Config)

/-- The bytes by which an incident is classified. -/
def sample? : Incident → Option Bytes
  | .data o => if c.takes o = true then o.payload.sample? config.chunkLimits o.byteCount else none
  | .opened _ | .sendfile _ | .tlsDetected | .disabled _ | .closed _ => none

variable {c config}

theorem exists_of_sample? {i : Incident} {sample : Bytes} (h : c.sample? config i = some sample) :
    ∃ o, i = .data o ∧ c.takes o = true ∧
      o.payload.sample? config.chunkLimits o.byteCount = some sample := by
  cases i with
  | data o =>
    rcases Option.ite_none_right_eq_some.1 h with ⟨htakes, hsample⟩
    exact ⟨o, rfl, htakes, hsample⟩
  | opened _ | sendfile _ | tlsDetected | disabled _ | closed _ => cases h

/-! ## The carry -/

/-- What a sampled transfer leaves in the carry is the work of the classifier. -/
theorem carry_sampled_of_sample {o : Transfer} {sample : Bytes}
    (h : o.payload.sample? config.chunkLimits o.byteCount = some sample) :
    (c.sampled config o).carry =
      (Classifier.infer ⟨config.enabledProtocols⟩ sample c.carry.clearPrepend c.protocol).2 := by
  simp only [sampled, h]
  rcases classify_eq { c with carry := c.carry.clearPrepend } ⟨config.enabledProtocols⟩ o.direction
    sample with ⟨_, _, _, hclassify⟩
  rw [hclassify]

theorem carry_sampled_of_none {o : Transfer}
    (h : o.payload.sample? config.chunkLimits o.byteCount = none) :
    (c.sampled config o).carry = c.carry.clearPrepend := by
  simp only [sampled, h]

variable (control : Control)

/-- A sample of four bytes is what the carry holds from then on. -/
theorem toBytes_carry_undergo {i : Incident} {sample : Bytes}
    (h : c.sample? config i = some sample)
    (hlength : (c.undergo config control i).connection.carry.lastLength = 4) :
    (c.undergo config control i).connection.carry.header.toBytes = sample := by
  rcases exists_of_sample? h with ⟨o, rfl, htakes, hsample⟩
  have hcarry : (c.undergo config control (.data o)).connection.carry =
      (Classifier.infer ⟨config.enabledProtocols⟩ sample c.carry.clearPrepend c.protocol).2 := by
    rw [(undergo_of_moving control (moving?_of_takes htakes)).1, carry_account,
      carry_sampled_of_sample hsample]
  rw [hcarry] at hlength ⊢
  have hfour : sample.length = 4 := hlength
  rcases Header.exists_ofBytes? hfour with ⟨header, hheader⟩
  have hkept : (Classifier.infer ⟨config.enabledProtocols⟩ sample c.carry.clearPrepend
      c.protocol).2.header = header := by
    simp [Classifier.infer, Carry.record, hheader]
  rw [hkept]
  exact (Header.ofBytes?_eq_some_iff.1 hheader).symm

/-- Everything else leaves the memory of the carry alone. -/
theorem carry_undergo_of_none {i : Incident} (h : c.sample? config i = none) :
    (c.undergo config control i).connection.carry.lastLength = c.carry.lastLength ∧
      (c.undergo config control i).connection.carry.header = c.carry.header := by
  cases hmoving : c.moving? config i with
  | none =>
    rcases undergo_of_not_moving control hmoving with hkept | ⟨_, hkept⟩ | ⟨_, _, hkept⟩ <;>
      rw [hkept] <;> exact ⟨rfl, rfl⟩
  | some p =>
    rcases p with ⟨c', m⟩
    rw [(undergo_of_moving control hmoving).1, carry_account]
    rcases moving?_cases hmoving with ⟨o, rfl, htakes, rfl, _⟩ | ⟨o, rfl, _, rfl, _⟩
    · have hsample : o.payload.sample? config.chunkLimits o.byteCount = none := by
        simpa [sample?, htakes] using h
      rw [carry_sampled_of_none hsample]
      exact ⟨rfl, rfl⟩
    · exact ⟨rfl, rfl⟩

end Connection

/-- The sample of an entry. -/
def Entry.sample? (e : Entry) (config : Config) : Option Bytes :=
  e.connection.sample? config e.incident

/-- A connection whose last sample could be a header got it from one of its entries, and has seen no
sample since. -/
theorem Life.carry_invariant {config : Config} {control : Control} :
    Life.Invariant config control fun past c => c.carry.lastLength = 4 →
      ∃ before e between, past = before ++ e :: between ∧
        e.sample? config = some c.carry.header.toBytes ∧
        ∀ e' ∈ between, e'.sample? config = none := by
  constructor
  · -- A connection starts with an empty memory.
    intro id address role hlength
    cases hlength
  · intro past e hafter hclosing hpast hlength
    cases hsample : e.sample? config with
    | some sample =>
      -- The entry itself is the last one with a sample.
      have hheader := Connection.toBytes_carry_undergo control hsample hlength
      refine ⟨past, e, [], rfl, ?_, ?_⟩
      · exact hsample.trans (congrArg some hheader.symm)
      · intro e' he'
        cases he'
    | none =>
      -- The memory is what it was before the entry.
      rcases Connection.carry_undergo_of_none control hsample with ⟨hlast, hheader⟩
      have hfour : e.connection.carry.lastLength = 4 := hlast.symm.trans hlength
      rcases hpast hfour with ⟨before, origin, between, rfl, horigin, hquiet⟩
      refine ⟨before, origin, between ++ [e], by simp, ?_, ?_⟩
      · rw [horigin]
        exact congrArg (fun header => some (Header.toBytes header)) hheader.symm
      · intro e' he'
        rcases List.mem_append.1 he' with hmem | hmem
        · exact hquiet e' hmem
        · rw [List.mem_singleton.1 hmem]
          exact hsample

end FlowTrace
