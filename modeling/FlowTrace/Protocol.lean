/-!
# Protocol — what a connection may be found to speak

The vocabulary of classification: the application protocols, the kind of a message, and the verdict
that names both. The index of a protocol is part of the event format and never changes; new
protocols may only be appended.
-/

namespace FlowTrace

inductive Protocol
  | unknown
  | http
  | http2
  | mysql
  | cql
  | pgsql
  | dns
  | redis
  | nats
  | mongo
  | kafka
  | mux
  | amqp
  deriving DecidableEq, Repr, Inhabited

namespace Protocol

/-- Every protocol, by increasing index. -/
def all : List Protocol :=
  [unknown, http, http2, mysql, cql, pgsql, dns, redis, nats, mongo, kafka, mux, amqp]

def index : Protocol → Nat
  | unknown => 0
  | http => 1
  | http2 => 2
  | mysql => 3
  | cql => 4
  | pgsql => 5
  | dns => 6
  | redis => 7
  | nats => 8
  | mongo => 9
  | kafka => 10
  | mux => 11
  | amqp => 12

/-- The name under which a protocol is shown. -/
def name : Protocol → String
  | unknown => "unknown"
  | http => "http"
  | http2 => "http2"
  | mysql => "mysql"
  | cql => "cql"
  | pgsql => "pgsql"
  | dns => "dns"
  | redis => "redis"
  | nats => "nats"
  | mongo => "mongo"
  | kafka => "kafka"
  | mux => "mux"
  | amqp => "amqp"

def isKnown (p : Protocol) : Bool :=
  p != unknown

/-- HTTP/2 is reserved for the reader of the events: no signature here recognises it. -/
def hasSignature (p : Protocol) : Bool :=
  p != unknown && p != http2

theorem all_index (p : Protocol) : all[p.index]? = some p := by
  cases p <;> rfl

theorem mem_all (p : Protocol) : p ∈ all :=
  List.mem_of_getElem? (all_index p)

end Protocol

/-! ## Messages -/

inductive MessageType
  | unknown
  | request
  | response
  deriving DecidableEq, Repr, Inhabited

def MessageType.isKnown (m : MessageType) : Bool :=
  m != .unknown

/-- What one payload was taken for. -/
structure Verdict where
  protocol : Protocol
  messageType : MessageType
  deriving DecidableEq, Repr

/-- Nothing was recognised. -/
def Verdict.unknown : Verdict :=
  ⟨.unknown, .unknown⟩

end FlowTrace
