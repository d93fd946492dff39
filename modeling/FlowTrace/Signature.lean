import FlowTrace.Signature.Http
import FlowTrace.Signature.Cql
import FlowTrace.Signature.Mongo
import FlowTrace.Signature.Pgsql
import FlowTrace.Signature.Mysql
import FlowTrace.Signature.Kafka
import FlowTrace.Signature.Amqp
import FlowTrace.Signature.Dns
import FlowTrace.Signature.Redis
import FlowTrace.Signature.Mux
import FlowTrace.Signature.Nats

/-!
# Signature — what each protocol makes of a payload

One function answers for every protocol, in one form: the kind of message that its signature sees,
or `none`.
-/

namespace FlowTrace

def MessageType.known? (m : MessageType) : Option MessageType :=
  if m.isKnown then some m else none

theorem MessageType.known?_eq_some_iff {m m' : MessageType} :
    m.known? = some m' ↔ m = m' ∧ m'.isKnown = true := by
  cases m <;> cases m' <;> decide

/-- The kind of message that the signature of `p` sees in the payload. A Redis value matches without
telling its kind. -/
def Protocol.recognise? (p : Protocol) (b : Bytes) (carry : Carry) : Option MessageType :=
  match p with
  | .http => (Http.classify b).known?
  | .cql => (Cql.classify b).known?
  | .mongo => (Mongo.classify b).known?
  | .pgsql => (Pgsql.classify b).known?
  | .mysql => (Mysql.classify b carry).messageType.known?
  | .kafka => (Kafka.classify b carry).messageType.known?
  | .amqp => (Amqp.classify b).known?
  | .dns => (Dns.classify b).known?
  | .redis => if Redis.isValue b then some .unknown else none
  | .mux => (Mux.classify b).known?
  | .nats => (Nats.classify b).known?
  | .unknown | .http2 => none

end FlowTrace
