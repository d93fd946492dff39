import FlowTrace.Proofs.Precedence
import Mathlib.Data.List.Infix

/-!
# Leading token — the word that a line of HTTP or NATS begins with

The leading token of a payload ends before the first blank or line end. The text signatures ask for a
keyword in front of the payload. Since a keyword has no blank in it, the leading token then begins
with the keyword, but nothing asks where the token ends: `GETX` is taken for `GET`, `INFORM` for
`INFO`. A token that goes on behind its keyword, `GoesOn`, is the one reason for a verdict that does
not name the whole token.

The rest of a verdict is as it should be. No keyword is the beginning of another one, so that the
order in which the keywords are tried does not matter, and the payload is long enough for a start line
or ends like a line.
-/

namespace FlowTrace

/-! ## Tokens -/

namespace Bytes

/-- What a token ends at. -/
def separators : Bytes :=
  ofChars [' ', '\t', '\r', '\n']

def leadingToken (b : Bytes) : Bytes :=
  b.takeWhile fun x => !separators.contains x

variable {b v w : Bytes} {words : List Bytes}

theorem prefix_leadingToken_iff (hw : ∀ x ∈ w, x ∉ separators) :
    w <+: b.leadingToken ↔ w <+: b := by
  constructor
  · intro h
    exact h.trans (List.takeWhile_prefix _)
  · rintro ⟨rest, rfl⟩
    have hkept : ∀ x ∈ w, (!separators.contains x) = true := by simpa using hw
    rw [leadingToken, List.takeWhile_append_of_pos hkept]
    exact List.prefix_append _ _

/-- Words without a separator, none of which is the beginning of another. -/
structure IsVocabulary (words : List Bytes) : Prop where
  not_mem_separators : ∀ w ∈ words, ∀ x ∈ w, x ∉ separators
  eq_of_isPrefix : ∀ v ∈ words, ∀ w ∈ words, v <+: w → v = w

/-- One word at most stands in front of a payload. -/
theorem IsVocabulary.unique (h : IsVocabulary words) (hv : v ∈ words) (hw : w ∈ words)
    (hvb : v <+: b) (hwb : w <+: b) : v = w := by
  rcases Nat.le_total v.length w.length with hle | hle
  · exact h.eq_of_isPrefix v hv w hw (List.prefix_of_prefix_length_le hvb hwb hle)
  · exact (h.eq_of_isPrefix w hw v hv (List.prefix_of_prefix_length_le hwb hvb hle)).symm

theorem IsVocabulary.subset {fewer : List Bytes} (h : IsVocabulary words) (hsub : fewer ⊆ words) :
    IsVocabulary fewer :=
  ⟨fun w hw => h.not_mem_separators w (hsub hw),
    fun v hv w hw => h.eq_of_isPrefix v (hsub hv) w (hsub hw)⟩

theorem IsVocabulary.any_isPrefixOf_iff (h : IsVocabulary words) :
    (words.any fun w => w.isPrefixOf b) = true ↔ ∃ w ∈ words, w <+: b.leadingToken := by
  rw [List.any_eq_true]
  refine exists_congr fun w => and_congr_right fun hw => ?_
  rw [List.isPrefixOf_iff_prefix, prefix_leadingToken_iff (h.not_mem_separators w hw)]

/-- A word stands in front of the payload, and its token goes on behind it. -/
def GoesOn (words : List Bytes) (b : Bytes) : Prop :=
  ∃ w ∈ words, w <+: b.leadingToken ∧ w ≠ b.leadingToken

instance : Decidable (GoesOn words b) :=
  inferInstanceAs (Decidable (∃ w ∈ words, w <+: b.leadingToken ∧ w ≠ b.leadingToken))

theorem GoesOn.exists_mem (h : GoesOn words b) : ∃ w ∈ words, w <+: b.leadingToken := by
  rcases h with ⟨w, hw, hahead, -⟩
  exact ⟨w, hw, hahead⟩

/-- Where a word stands in front, it is the whole token unless the token goes on. -/
theorem IsVocabulary.mem_leadingToken_iff (h : IsVocabulary words)
    (hfront : ∃ w ∈ words, w <+: b.leadingToken) : b.leadingToken ∈ words ↔ ¬GoesOn words b := by
  rcases hfront with ⟨v, hv, hvb⟩
  constructor
  · rintro htoken ⟨w, hw, hwb, hne⟩
    exact hne (h.eq_of_isPrefix w hw _ htoken hwb)
  · intro hends
    by_cases hwhole : v = b.leadingToken
    · rwa [← hwhole]
    · exact absurd ⟨v, hv, hvb, hwhole⟩ hends

end Bytes

/-! ## HTTP -/

namespace Http

variable {b : Bytes}

theorem isVocabulary : Bytes.IsVocabulary (statusMark :: methods) :=
  ⟨by decide +kernel, by decide⟩

theorem methods_subset : methods ⊆ statusMark :: methods :=
  List.subset_cons_self _ _

/-- A status line is no request line, so it does not matter which one is looked for first. -/
theorem classify_eq_request_iff : classify b = .request ↔
    minLength ≤ b.length ∧ ∃ m ∈ methods, m <+: b.leadingToken := by
  have hmethods := (isVocabulary.subset methods_subset).any_isPrefixOf_iff (b := b)
  constructor
  · intro hrequest
    unfold classify at hrequest
    split_ifs at hrequest with hshort hstatus hmethod
    exact ⟨Nat.not_lt.1 hshort, hmethods.1 hmethod⟩
  · rintro ⟨hlong, m, hm, hfront⟩
    have hstatus : ¬statusMark.isPrefixOf b = true := by
      rw [List.isPrefixOf_iff_prefix]
      intro hstatus
      have hsame := isVocabulary.unique List.mem_cons_self (methods_subset hm) hstatus
        (hfront.trans (List.takeWhile_prefix _))
      rw [← hsame] at hm
      exact absurd hm (by decide)
    rw [classify, if_neg (Nat.not_lt.2 hlong), if_neg hstatus, if_pos (hmethods.2 ⟨m, hm, hfront⟩)]

end Http

/-! ## NATS -/

namespace Nats

variable {b : Bytes} {kind : MessageType}

/-- The verbs of the side that sends this kind of message. -/
def verbs : MessageType → List Bytes
  | .request => clientVerbs
  | .response => serverVerbs
  | .unknown => []

theorem isVocabulary : Bytes.IsVocabulary (verbs .request ++ verbs .response) :=
  ⟨by decide +kernel, by decide⟩

theorem verbs_subset (kind : MessageType) : verbs kind ⊆ verbs .request ++ verbs .response := by
  cases kind with
  | unknown => exact List.nil_subset _
  | request => exact List.subset_append_left _ _
  | response => exact List.subset_append_right _ _

/-- A verb belongs to one side. -/
theorem kind_unique {verb : Bytes} {kind' : MessageType} (h : verb ∈ verbs kind)
    (h' : verb ∈ verbs kind') : kind = kind' := by
  revert verb
  cases kind <;> cases kind' <;> decide

theorem isLine_iff (hfront : ∃ verb ∈ verbs kind, verb <+: b.leadingToken) :
    isLine b = true ↔ Bytes.crlf <:+ b := by
  have hmin : ∀ verb ∈ verbs kind, minLength ≤ verb.length := by
    cases kind <;> decide
  rcases hfront with ⟨verb, hverb, hahead⟩
  have hlong : minLength ≤ b.length :=
    (hmin verb hverb).trans (hahead.trans (List.takeWhile_prefix _)).length_le
  simp [isLine, hlong, Bytes.endsWith_iff]

theorem any_verbs_iff (kind : MessageType) :
    ((verbs kind).any fun verb => verb.isPrefixOf b) = true ↔
      ∃ verb ∈ verbs kind, verb <+: b.leadingToken :=
  (isVocabulary.subset (verbs_subset kind)).any_isPrefixOf_iff

theorem known?_classify_eq_some_iff : (classify b).known? = some kind ↔
    Bytes.crlf <:+ b ∧ ∃ verb ∈ verbs kind, verb <+: b.leadingToken := by
  have hrequest : (clientVerbs.any fun verb => verb.isPrefixOf b) = true ↔ _ :=
    any_verbs_iff .request
  have hresponse : (serverVerbs.any fun verb => verb.isPrefixOf b) = true ↔ _ :=
    any_verbs_iff .response
  rw [MessageType.known?_eq_some_iff]
  constructor
  · rintro ⟨rfl, hknown⟩
    unfold classify at hknown ⊢
    split_ifs at hknown ⊢ with hline hclient hserver
    · cases hknown
    · have hfront := hrequest.1 hclient
      exact ⟨(isLine_iff hfront).1 (by simpa using hline), hfront⟩
    · have hfront := hresponse.1 hserver
      exact ⟨(isLine_iff hfront).1 (by simpa using hline), hfront⟩
    · cases hknown
  · rintro ⟨hend, hfront⟩
    have hline : isLine b = true := (isLine_iff hfront).2 hend
    cases kind with
    | unknown =>
      rcases hfront with ⟨verb, hverb, -⟩
      cases hverb
    | request => simp [classify, hline, hrequest.2 hfront, MessageType.isKnown]
    | response =>
      have hclient : ¬(clientVerbs.any fun verb => verb.isPrefixOf b) = true := by
        -- The client has no verb that begins like this one, and this one is not its own.
        intro hclient
        rcases hrequest.1 hclient with ⟨verb, hverb, hahead⟩
        rcases hfront with ⟨verb', hverb', hahead'⟩
        have hsame := isVocabulary.unique (verbs_subset _ hverb) (verbs_subset _ hverb') hahead
          hahead'
        rw [hsame] at hverb
        cases kind_unique hverb hverb'
      simp [classify, hline, hclient, hresponse.2 hfront, MessageType.isKnown]

end Nats

/-! ## Verdicts -/

/-- A verdict on a text tells its whole leading token: the method of a request, or a verb of the side
that sends such messages. -/
structure Verdict.NamesToken (v : Verdict) (b : Bytes) : Prop where
  http : v = ⟨.http, .request⟩ → Http.minLength ≤ b.length ∧ b.leadingToken ∈ Http.methods
  nats : ∀ kind, v = ⟨.nats, kind⟩ → Bytes.crlf <:+ b ∧ b.leadingToken ∈ Nats.verbs kind

namespace Classifier

variable {e : Classifier} {b : Bytes} {carry : Carry} {latched p : Protocol} {m : MessageType}

/-- The signature of `p` is enabled, and no enabled one before it matches. -/
def Reaches (e : Classifier) (b : Bytes) (carry : Carry) (p : Protocol) : Prop :=
  e.enabled.contains p = true ∧
    ∀ q, q.rank < p.rank → e.enabled.contains q = true → q.recognise? b carry = none

theorem finds_iff : e.Finds b carry p m ↔
    e.Reaches b carry p ∧ p.recognise? b carry = some m := by
  constructor
  · rintro ⟨henabled, hrecognised, hfirst⟩
    exact ⟨⟨henabled, hfirst⟩, hrecognised⟩
  · rintro ⟨⟨henabled, hfirst⟩, hrecognised⟩
    exact ⟨henabled, hrecognised, hfirst⟩

/-- HTTP comes first, so nothing keeps the payload from it. -/
theorem reaches_http : e.Reaches b carry .http ↔ e.enabled.contains .http = true :=
  and_iff_left fun _ hrank => absurd hrank (Nat.not_lt_zero _)

theorem infer_eq_http_request_iff : (e.infer b carry latched).1 = ⟨.http, .request⟩ ↔
    latched ≠ .mongo ∧ e.enabled.contains .http = true ∧
      Http.minLength ≤ b.length ∧ ∃ m ∈ Http.methods, m <+: b.leadingToken := by
  have hrecognise : Protocol.http.recognise? b carry = some .request ↔
      Http.classify b = .request :=
    MessageType.known?_eq_some_iff.trans (and_iff_left rfl)
  rw [infer_eq_iff (by decide), finds_iff, reaches_http, hrecognise,
    Http.classify_eq_request_iff]

theorem infer_eq_nats_iff : (e.infer b carry latched).1 = ⟨.nats, m⟩ ↔
    latched ≠ .mongo ∧ e.Reaches b carry .nats ∧
      Bytes.crlf <:+ b ∧ ∃ verb ∈ Nats.verbs m, verb <+: b.leadingToken := by
  have hrecognise : Protocol.nats.recognise? b carry = some m ↔ _ :=
    Nats.known?_classify_eq_some_iff
  rw [infer_eq_iff (by decide), finds_iff, hrecognise]

theorem namesToken_iff : (e.infer b carry latched).1.NamesToken b ↔
    ((e.infer b carry latched).1 = ⟨.http, .request⟩ → ¬Bytes.GoesOn Http.methods b) ∧
      ∀ kind, (e.infer b carry latched).1 = ⟨.nats, kind⟩ → ¬Bytes.GoesOn (Nats.verbs kind) b := by
  have hmethods := Http.isVocabulary.subset Http.methods_subset
  have hverbs : ∀ kind, Bytes.IsVocabulary (Nats.verbs kind) := fun kind =>
    Nats.isVocabulary.subset (Nats.verbs_subset kind)
  constructor
  · rintro ⟨hhttp, hnats⟩
    refine ⟨fun hverdict => ?_, fun kind hverdict => ?_⟩
    · rcases infer_eq_http_request_iff.1 hverdict with ⟨-, -, -, hfront⟩
      exact (hmethods.mem_leadingToken_iff hfront).1 (hhttp hverdict).2
    · rcases infer_eq_nats_iff.1 hverdict with ⟨-, -, -, hfront⟩
      exact ((hverbs kind).mem_leadingToken_iff hfront).1 (hnats kind hverdict).2
  · rintro ⟨hhttp, hnats⟩
    refine ⟨fun hverdict => ?_, fun kind hverdict => ?_⟩
    · rcases infer_eq_http_request_iff.1 hverdict with ⟨-, -, hlong, hfront⟩
      exact ⟨hlong, (hmethods.mem_leadingToken_iff hfront).2 (hhttp hverdict)⟩
    · rcases infer_eq_nats_iff.1 hverdict with ⟨-, -, hend, hfront⟩
      exact ⟨hend, ((hverbs kind).mem_leadingToken_iff hfront).2 (hnats kind hverdict)⟩

/-- With no other signature enabled, everything gets to this one. -/
theorem reaches_alone (hp : p ∈ Protocol.precedence) (b : Bytes) (carry : Carry) :
    Reaches ⟨.ofList [p]⟩ b carry p := by
  have halone : ∀ q, (ProtocolSet.ofList [p]).contains q = true → q = p := by
    intro q
    cases p <;> cases q <;> decide
  refine ⟨by revert hp; cases p <;> decide, fun q hrank henabled => ?_⟩
  rw [halone q henabled] at hrank
  exact absurd hrank (Nat.lt_irrefl _)

theorem forall_namesToken_iff (b : Bytes) :
    (∀ (e : Classifier) carry latched, (e.infer b carry latched).1.NamesToken b) ↔
      (Http.minLength ≤ b.length → ¬Bytes.GoesOn Http.methods b) ∧
        (Bytes.crlf <:+ b → ∀ kind, ¬Bytes.GoesOn (Nats.verbs kind) b) := by
  have hfresh : Protocol.unknown ≠ .mongo := by decide
  constructor
  · intro hall
    refine ⟨fun hlong hgoes => ?_, fun hend kind hgoes => ?_⟩
    · have halone := reaches_alone (p := .http) (by decide) b .empty
      have hverdict : (infer ⟨.ofList [.http]⟩ b .empty .unknown).1 = ⟨.http, .request⟩ :=
        infer_eq_http_request_iff.2 ⟨hfresh, halone.1, hlong, hgoes.exists_mem⟩
      exact (namesToken_iff.1 (hall _ _ _)).1 hverdict hgoes
    · have halone := reaches_alone (p := .nats) (by decide) b .empty
      have hverdict : (infer ⟨.ofList [.nats]⟩ b .empty .unknown).1 = ⟨.nats, kind⟩ :=
        infer_eq_nats_iff.2 ⟨hfresh, halone, hend, hgoes.exists_mem⟩
      exact (namesToken_iff.1 (hall _ _ _)).2 kind hverdict hgoes
  · rintro ⟨hhttp, hnats⟩ e carry latched
    refine namesToken_iff.2 ⟨fun hverdict => ?_, fun kind hverdict => ?_⟩
    · rcases infer_eq_http_request_iff.1 hverdict with ⟨-, -, hlong, -⟩
      exact hhttp hlong
    · rcases infer_eq_nats_iff.1 hverdict with ⟨-, -, hend, -⟩
      exact hnats hend kind

/-- A request of HTTP and a message of NATS are found exactly where the leading token begins with a
keyword, next to what is asked of the length or the end of the payload. Such a verdict names the whole
token unless the token goes on behind the keyword. So the payloads whose token does not go on are the
ones on which every verdict names the whole token, whatever is enabled, carried or latched. -/
theorem tokens_exactly (b : Bytes) :
    (∀ (e : Classifier) carry latched, (e.infer b carry latched).1 = ⟨.http, .request⟩ ↔
      latched ≠ .mongo ∧ e.enabled.contains .http = true ∧
        Http.minLength ≤ b.length ∧ ∃ m ∈ Http.methods, m <+: b.leadingToken) ∧
      (∀ (e : Classifier) carry latched kind, (e.infer b carry latched).1 = ⟨.nats, kind⟩ ↔
        latched ≠ .mongo ∧ e.Reaches b carry .nats ∧
          Bytes.crlf <:+ b ∧ ∃ verb ∈ Nats.verbs kind, verb <+: b.leadingToken) ∧
      (∀ (e : Classifier) carry latched, (e.infer b carry latched).1.NamesToken b ↔
        ((e.infer b carry latched).1 = ⟨.http, .request⟩ → ¬Bytes.GoesOn Http.methods b) ∧
          ∀ kind, (e.infer b carry latched).1 = ⟨.nats, kind⟩ →
            ¬Bytes.GoesOn (Nats.verbs kind) b) ∧
      ((∀ (e : Classifier) carry latched, (e.infer b carry latched).1.NamesToken b) ↔
        (Http.minLength ≤ b.length → ¬Bytes.GoesOn Http.methods b) ∧
          (Bytes.crlf <:+ b → ∀ kind, ¬Bytes.GoesOn (Nats.verbs kind) b)) := by
  refine ⟨?_, ?_, ?_, forall_namesToken_iff b⟩
  · intro e carry latched
    exact infer_eq_http_request_iff
  · intro e carry latched kind
    exact infer_eq_nats_iff
  · intro e carry latched
    exact namesToken_iff

end Classifier

namespace Session

/-- A subscription. -/
def subscribeLine : Bytes :=
  Bytes.ofChars ['S', 'U', 'B', ' ', 'f', 'o', 'o', ' ', '1', '\r', '\n']

/-- A request line whose method is `GETX`. -/
def longMethodLine : Bytes :=
  Bytes.ofChars
    ['G', 'E', 'T', 'X', ' ', '/', ' ', 'H', 'T', 'T', 'P', '/', '1', '.', '1', '\r', '\n']

/-- A line whose verb is `SUBX`. -/
def longVerbLine : Bytes :=
  Bytes.ofChars ['S', 'U', 'B', 'X', ' ', 'f', 'o', 'o', ' ', '1', '\r', '\n']

end Session

namespace Classifier

/-- Nothing comes before NATS on a line that subscribes, and its token is the verb. -/
theorem tokens_exactly_subscribeLine :
    (full.infer Session.subscribeLine .empty .unknown).1 = ⟨.nats, .request⟩ ∧
      Bytes.leadingToken Session.subscribeLine ∈ Nats.verbs .request := by
  have hverdict : (full.infer Session.subscribeLine .empty .unknown).1 = ⟨.nats, .request⟩ := by
    decide +kernel
  refine ⟨hverdict, ?_⟩
  have hnames := (tokens_exactly Session.subscribeLine).2.2.2.2
    ⟨fun _ => by decide, fun _ kind => by cases kind <;> decide⟩
  exact ((hnames full .empty .unknown).nats .request hverdict).2

/-- `GETX` is no method and `SUBX` is no verb, but both are taken for one. -/
theorem longer_tokens_taken :
    (full.infer Session.longMethodLine .empty .unknown).1 = ⟨.http, .request⟩ ∧
      Bytes.leadingToken Session.longMethodLine ∉ Http.methods ∧
      (full.infer Session.longVerbLine .empty .unknown).1 = ⟨.nats, .request⟩ ∧
      ∀ kind, Bytes.leadingToken Session.longVerbLine ∉ Nats.verbs kind := by
  refine ⟨by decide +kernel, by decide, by decide +kernel, ?_⟩
  intro kind
  cases kind <;> decide

end Classifier

end FlowTrace
