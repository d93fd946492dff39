import FlowTrace.Protocol.Set
import FlowTrace.Signature

/-!
# Classifier — one verdict per payload

The enabled signatures are tried in a fixed order and the first match wins. The classifier itself
has no state: what a connection remembers is in its carry.
-/

namespace FlowTrace

/-- The order in which the signatures are tried. -/
def Protocol.precedence : List Protocol :=
  [.http, .cql, .mongo, .pgsql, .mysql, .kafka, .amqp, .dns, .redis, .mux, .nats]

structure Classifier where
  enabled : ProtocolSet
  deriving DecidableEq, Repr

namespace Classifier

/-- Every signature is enabled. -/
def full : Classifier :=
  ⟨.all⟩

/-- The verdict of the first enabled signature that matches. -/
def scan (e : Classifier) (b : Bytes) (carry : Carry) : Verdict :=
  ((Protocol.precedence.filter e.enabled.contains).findSome? fun p =>
    (p.recognise? b carry).map (Verdict.mk p)).getD .unknown

/-- Classifies a payload of a connection on which `latched` was found before.

Once a connection speaks MongoDB no signature is tried, because message bodies often look like other
protocols. The carry always remembers the payload. Its header is to be handed on exactly if this
payload is the first one that shows Kafka and it used the header. -/
def infer (e : Classifier) (b : Bytes) (carry : Carry) (latched : Protocol) : Verdict × Carry :=
  let verdict := if latched = .mongo then .unknown else e.scan b carry
  let prepend :=
    verdict.protocol == .kafka && (Kafka.classify b carry).usedCarry && latched == .unknown
  (verdict, { carry.record b with prepend })

end Classifier

end FlowTrace
