/-!
# Operation — the call that produced an observation

The codes are part of the event format and never change.
-/

namespace FlowTrace

inductive Operation
  | unknown
  | accept
  | connect
  | close
  | write
  | read
  | send
  | recv
  | sendTo
  | recvFrom
  | sendMsg
  | recvMsg
  | sendMmsg
  | recvMmsg
  | writev
  | readv
  | sendfile
  | goTlsConnWrite
  | goTlsConnRead
  | sslWrite
  | sslRead
  deriving DecidableEq, Repr, Inhabited

namespace Operation

/-- Every operation, by increasing code. -/
def all : List Operation :=
  [ unknown, accept, connect, close, write, read, send, recv, sendTo, recvFrom, sendMsg, recvMsg,
    sendMmsg, recvMmsg, writev, readv, sendfile, goTlsConnWrite, goTlsConnRead, sslWrite, sslRead ]

def code : Operation → Nat
  | unknown => 0
  | accept => 1
  | connect => 2
  | close => 3
  | write => 4
  | read => 5
  | send => 6
  | recv => 7
  | sendTo => 8
  | recvFrom => 9
  | sendMsg => 10
  | recvMsg => 11
  | sendMmsg => 12
  | recvMmsg => 13
  | writev => 14
  | readv => 15
  | sendfile => 16
  | goTlsConnWrite => 17
  | goTlsConnRead => 18
  | sslWrite => 19
  | sslRead => 20

theorem all_code (o : Operation) : all[o.code]? = some o := by
  cases o <;> rfl

theorem mem_all (o : Operation) : o ∈ all :=
  List.mem_of_getElem? (all_code o)

end Operation

end FlowTrace
