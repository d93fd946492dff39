import FlowTrace.Address
import FlowTrace.Connection.Id
import FlowTrace.Document

/-!
# Stored identities — handles, incarnations, times and addresses
-/

namespace FlowTrace

instance : Stored Timestamp where
  write t := Stored.write t.nanoseconds
  read? d := (Stored.read? d).map Timestamp.mk

instance : Stored ConnectionKey where
  write k := .object [("pid", Stored.write k.pid), ("fd", Stored.write k.fd)]
  read? d := do
    match ← d.fields? ["pid", "fd"] with
    | [pid, fd] => pure { pid := ← Document.required pid, fd := ← Document.required fd }
    | _ => none

instance : Stored ConnectionId where
  write i :=
    .object
      [ ("key", Stored.write i.key),
        ("start_time_ticks", Stored.write i.startTicks),
        ("generation", Stored.write i.generation) ]
  read? d := do
    match ← d.fields? ["key", "start_time_ticks", "generation"] with
    | [key, startTicks, generation] =>
      pure
        { key := ← Document.required key
          startTicks := ← Document.required startTicks
          generation := ← Document.required generation }
    | _ => none

/-- An address of another family is an object in which further fields are ignored. -/
instance : Stored RemoteAddress where
  write
    | .unknown => .text "Unknown"
    | .inet address => .object [("Inet", .text address.toText)]
    | .other family => .object [("Other", .object [("family", Stored.write family)])]
  read?
    | .text "Unknown" => some .unknown
    | .object [("Unknown", .null)] => some .unknown
    | .object [("Inet", .text address)] => (SocketAddress.ofText? address).map .inet
    | .object [("Other", .object fields)] =>
      (Document.required (fields.lookup "family")).map .other
    | _ => none

end FlowTrace
