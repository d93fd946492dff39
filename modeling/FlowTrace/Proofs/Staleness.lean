import FlowTrace.Proofs.Handover

/-!
# Staleness — only the payload just before can be a header

A carry keeps the header that it holds through every payload of another length, however many there
are. Beside it stands the length of the last payload, and the header counts only while that is four.
So two carries that hold different headers cannot be told apart, neither by a verdict nor by what is
handed on, if neither of them has just seen a header. The payload just before decides, and from the
next one on both have seen the same.
-/

namespace FlowTrace

/-! ## Histories -/

namespace Carry

/-- One use of a carry: a payload is remembered, or classified and remembered, or the mark is taken
away. -/
inductive Use
  | record (b : Bytes)
  | infer (e : Classifier) (b : Bytes) (latched : Protocol)
  | clear
  deriving DecidableEq, Repr

def Use.payload? : Use → Option Bytes
  | record b | infer _ b _ => some b
  | clear => none

def apply (c : Carry) : Use → Carry
  | .record b => c.record b
  | .infer e b latched => (e.infer b c latched).2
  | .clear => c.clearPrepend

/-- What is left of a fresh carry by a history of uses. -/
def after (past : List Use) : Carry :=
  past.foldl apply .empty

/-- The payload that was seen last. Before the first one it is as if an empty one had been seen. -/
def lastPayload (past : List Use) : Bytes :=
  (past.filterMap Use.payload?).getLast?.getD []

/-- The last payload that was a header, however long ago. -/
def lastHeader? (past : List Use) : Option Header :=
  (past.filterMap fun u => u.payload?.bind Header.ofBytes?).getLast?

theorem after_concat (past : List Use) (u : Use) : after (past ++ [u]) = (after past).apply u := by
  simp [after]

theorem lastPayload_concat (past : List Use) (u : Use) :
    lastPayload (past ++ [u]) = u.payload?.getD (lastPayload past) := by
  cases u <;> simp [lastPayload, Use.payload?]

theorem lastHeader?_concat (past : List Use) (u : Use) :
    lastHeader? (past ++ [u]) = (u.payload?.bind Header.ofBytes?).or (lastHeader? past) := by
  rw [lastHeader?, List.filterMap_append, List.getLast?_append, List.filterMap_cons,
    List.filterMap_nil]
  cases u.payload?.bind Header.ofBytes? <;> rfl

/-- After any history the carry remembers the last payload. -/
theorem lastSaw_after (past : List Use) : (after past).LastSaw (lastPayload past) := by
  induction past using List.reverseRecOn with
  | nil => exact lastSaw_empty
  | append_singleton past u ih =>
    rw [after_concat, lastPayload_concat]
    cases u with
    | record b => exact lastSaw_record _ b
    | infer e b latched => exact Classifier.lastSaw_infer
    | clear => exact ⟨ih.lastLength_eq, ih.header_eq⟩

/-- It holds the last header, even if other payloads came after it. -/
theorem header_after (past : List Use) : (after past).header = (lastHeader? past).getD .zero := by
  induction past using List.reverseRecOn with
  | nil => rfl
  | append_singleton past u ih =>
    rw [after_concat, lastHeader?_concat]
    cases u with
    | clear => exact ih
    | record b | infer e b latched =>
      have hheader : ((after past).record b).header =
          (Header.ofBytes? b).getD (after past).header := rfl
      refine hheader.trans ?_
      rw [ih]
      cases hfour : Header.ofBytes? b <;> simp [Use.payload?, hfour]

end Carry

/-! ## What does not count -/

section Stale

variable {carry carry' : Carry} {seen seen' : Bytes}

/-- A carry that has not just seen a header is as good as a fresh one. -/
theorem Protocol.recognise?_of_stale (p : Protocol) (b : Bytes) (h : carry.LastSaw seen)
    (hstale : seen.length ≠ 4) : p.recognise? b carry = p.recognise? b .empty := by
  cases p with
  | mysql =>
    have hother : ¬Mysql.Announces seen b := fun hannounces => hstale hannounces.1
    simp only [recognise?, (Mysql.classify_of_not_announced h hother).1]
  | kafka =>
    have hother : ¬Kafka.Announces seen b := fun hannounces => hstale hannounces.1
    simp only [recognise?, (Kafka.classify_of_not_announced h hother).1]
  | _ => rfl

/-- Two carries that have just seen the same header differ in their marks only. -/
theorem Carry.LastSaw.clearPrepend_eq (h : carry.LastSaw seen) (h' : carry'.LastSaw seen)
    (hfour : seen.length = 4) : carry.clearPrepend = carry'.clearPrepend := by
  rcases Header.exists_ofBytes? hfour with ⟨header, hheader⟩
  rw [clearPrepend, clearPrepend, Carry.mk.injEq]
  refine ⟨?_, ?_, rfl⟩
  · rw [h.lastLength_eq, h'.lastLength_eq]
  · rw [h.header_eq header hheader, h'.header_eq header hheader]

namespace Classifier

variable (e : Classifier) (b : Bytes) (latched : Protocol)

theorem infer_of_stale (h : carry.LastSaw seen) (hstale : seen.length ≠ 4) :
    e.infer b carry latched =
      ((e.infer b .empty latched).1, { carry.record b with prepend := false }) := by
  have hscan : e.scan b carry = e.scan b .empty := by
    simp only [scan, fun p => Protocol.recognise?_of_stale p b h hstale]
  have hother : ¬Kafka.Announces seen b := fun hannounces => hstale hannounces.1
  have hunused := (Kafka.classify_of_not_announced h hother).2
  simp only [infer, hscan, hunused, Bool.and_false, Bool.false_and]

theorem infer_of_same (h : carry.LastSaw seen) (h' : carry'.LastSaw seen)
    (hfour : seen.length = 4) : e.infer b carry latched = e.infer b carry' latched := by
  rw [← e.infer_clearPrepend b carry, ← e.infer_clearPrepend b carry', h.clearPrepend_eq h' hfour]

end Classifier

end Stale

/-! ## What counts -/

/-- Two payloads count alike as the one before: they are the same, or neither is a header. -/
def Bytes.CountsLike (seen seen' : Bytes) : Prop :=
  (seen.length ≠ 4 ∧ seen'.length ≠ 4) ∨ seen = seen'

/-- What is told of one payload. -/
structure Answer where
  verdict : Verdict
  prepend : Bool
  lengthHeader : Option Header
  deriving DecidableEq, Repr

namespace Classifier

/-- What is told of one payload after the other, each with the protocol known before it. -/
def answers (e : Classifier) (carry : Carry) : List (Bytes × Protocol) → List Answer
  | [] => []
  | (b, latched) :: later =>
    let (verdict, carry) := e.infer b carry latched
    ⟨verdict, carry.prepend, carry.lengthHeader⟩ :: e.answers carry later

variable {carry carry' : Carry} {seen seen' : Bytes}

/-- One payload is answered alike. -/
theorem infer_alike (e : Classifier) (b : Bytes) (latched : Protocol) (h : carry.LastSaw seen)
    (h' : carry'.LastSaw seen') (hsame : seen.CountsLike seen') :
    (e.infer b carry latched).1 = (e.infer b carry' latched).1 ∧
      (e.infer b carry latched).2.prepend = (e.infer b carry' latched).2.prepend ∧
      (e.infer b carry latched).2.lengthHeader = (e.infer b carry' latched).2.lengthHeader := by
  by_cases hfour : seen.length = 4
  · obtain rfl : seen = seen' := hsame.resolve_left fun hstale => hstale.1 hfour
    rw [e.infer_of_same b latched h h' hfour]
    exact ⟨rfl, rfl, rfl⟩
  · have hfour' : seen'.length ≠ 4 := by
      rcases hsame with hstale | rfl
      · exact hstale.2
      · exact hfour
    rw [e.infer_of_stale b latched h hfour, e.infer_of_stale b latched h' hfour']
    exact ⟨rfl, rfl, rfl⟩

/-- And so are all that follow, because both carries have then seen the same payload. -/
theorem answers_alike (e : Classifier) (later : List (Bytes × Protocol)) (h : carry.LastSaw seen)
    (h' : carry'.LastSaw seen') (hsame : seen.CountsLike seen') :
    e.answers carry later = e.answers carry' later := by
  induction later generalizing carry carry' seen seen' with
  | nil => rfl
  | cons query later ih =>
    rcases query with ⟨b, latched⟩
    rcases e.infer_alike b latched h h' hsame with ⟨hverdict, hprepend, hheader⟩
    have hrest : e.answers (e.infer b carry latched).2 later =
        e.answers (e.infer b carry' latched).2 later :=
      ih lastSaw_infer lastSaw_infer (Or.inr rfl)
    simp only [answers]
    rw [hverdict, hprepend, hheader, hrest]

end Classifier

namespace Carry

/-- After any history the carry still holds the last header, but only the last payload counts: every
history whose last payload counts alike is followed by the same answers, and so is a carry that has
seen that payload alone. -/
theorem stale_header_unseen (past : List Use) :
    (after past).header = (lastHeader? past).getD .zero ∧
      (∀ past' : List Use, (lastPayload past).CountsLike (lastPayload past') →
        ∀ (e : Classifier) (later : List (Bytes × Protocol)),
          e.answers (after past) later = e.answers (after past') later) ∧
      ∀ (e : Classifier) (later : List (Bytes × Protocol)),
        e.answers (after past) later = e.answers (empty.record (lastPayload past)) later := by
  refine ⟨header_after past, ?_, ?_⟩
  · intro past' hsame e later
    exact e.answers_alike later (lastSaw_after past) (lastSaw_after past') hsame
  · intro e later
    exact e.answers_alike later (lastSaw_after past) (lastSaw_record _ _) (Or.inr rfl)

/-- A length that was seen before the last payload is still held, but the message that it announces is
not recognised by it, just as if there had been no length. -/
theorem stale_header_unseen_length :
    (after [.record [0, 0, 0, 8], .record [1]]).header = ⟨0, 0, 0, 8⟩ ∧
      (lastPayload [.record [0, 0, 0, 8], .record [1]]).CountsLike (lastPayload []) ∧
      Classifier.full.answers (after [.record [0, 0, 0, 8], .record [1]])
        [([0, 3, 0, 1, 0, 0, 0, 7], .unknown)] = [⟨.unknown, false, none⟩] ∧
      Classifier.full.answers (after [.record [0, 0, 0, 8]])
        [([0, 3, 0, 1, 0, 0, 0, 7], .unknown)] =
          [⟨⟨.kafka, .request⟩, true, some ⟨0, 0, 0, 8⟩⟩] := by
  have hsame : (lastPayload [.record [0, 0, 0, 8], .record [1]]).CountsLike (lastPayload []) :=
    Or.inl ⟨by decide, by decide⟩
  rcases stale_header_unseen [.record [0, 0, 0, 8], .record [1]] with ⟨hheader, hanswers, -⟩
  refine ⟨hheader, hsame, ?_, by decide +kernel⟩
  rw [hanswers [] hsame]
  decide +kernel

end Carry

end FlowTrace
