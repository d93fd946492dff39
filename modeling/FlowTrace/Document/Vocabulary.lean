import FlowTrace.Config
import FlowTrace.Document
import FlowTrace.Endpoint
import FlowTrace.Operation
import FlowTrace.Protocol.Set

/-!
# Stored vocabulary — names of the enumerations, numbers of the masks
-/

namespace FlowTrace

instance : Named Protocol where
  all := Protocol.all
  name
    | .unknown => "Unknown"
    | .http => "Http"
    | .http2 => "Http2"
    | .mysql => "Mysql"
    | .cql => "Cql"
    | .pgsql => "Pgsql"
    | .dns => "Dns"
    | .redis => "Redis"
    | .nats => "Nats"
    | .mongo => "Mongo"
    | .kafka => "Kafka"
    | .mux => "Mux"
    | .amqp => "Amqp"

instance : Named MessageType where
  all := [.unknown, .request, .response]
  name
    | .unknown => "Unknown"
    | .request => "Request"
    | .response => "Response"

instance : Named Direction where
  all := [.egress, .ingress]
  name
    | .egress => "Egress"
    | .ingress => "Ingress"

instance : Named Role where
  all := [.client, .server, .unknown]
  name
    | .client => "Client"
    | .server => "Server"
    | .unknown => "Unknown"

instance : Named RoleHint where
  all := [.connect, .accept, .implicit]
  name
    | .connect => "Connect"
    | .accept => "Accept"
    | .implicit => "Implicit"

instance : Named CapacityPolicy where
  all := [.reject, .evictOldest]
  name
    | .reject => "Reject"
    | .evictOldest => "EvictOldest"

instance : Named Operation where
  all := Operation.all
  name
    | .unknown => "Unknown"
    | .accept => "Accept"
    | .connect => "Connect"
    | .close => "Close"
    | .write => "Write"
    | .read => "Read"
    | .send => "Send"
    | .recv => "Recv"
    | .sendTo => "SendTo"
    | .recvFrom => "RecvFrom"
    | .sendMsg => "SendMsg"
    | .recvMsg => "RecvMsg"
    | .sendMmsg => "SendMmsg"
    | .recvMmsg => "RecvMmsg"
    | .writev => "Writev"
    | .readv => "Readv"
    | .sendfile => "Sendfile"
    | .goTlsConnWrite => "GoTlsConnWrite"
    | .goTlsConnRead => "GoTlsConnRead"
    | .sslWrite => "SslWrite"
    | .sslRead => "SslRead"

instance : Stored ProtocolSet where
  write s := Stored.write s.bits
  read? d := (Stored.read? d).map ProtocolSet.mk

instance : Stored TraceMask where
  write m := Stored.write m.bits
  read? d := (Stored.read? d).map TraceMask.mk

end FlowTrace
