import FlowTrace.Movement

/-!
# Traffic — how a connection takes the observations of its bytes

Payloads that were staged are classified before they move; the bytes of files never are. A
connection whose address is of another family takes no bytes at all, and a TLS connection takes only
the plain text that its library shows.
-/

namespace FlowTrace.Connection

/-- Classifies the sample of a transfer, if it has one. The length header belongs to one transfer, so
that of the transfer before is dropped in any case. -/
def sampled (c : Connection) (config : Config) (o : Transfer) : Connection :=
  let c := { c with carry := c.carry.clearPrepend }
  match o.payload.sample? config.chunkLimits o.byteCount with
  | some sample => c.classify ⟨config.enabledProtocols⟩ o.direction sample
  | none => c

def transfer (c : Connection) (config : Config) (control : Control) (force : Bool) (o : Transfer) :
    Reaction :=
  if !c.address.isTraceable then ⟨c, [], { nonInetSkipped := 1 }⟩
  else if c.ssl != o.ssl then ⟨c, [], { sslMismatch := 1 }⟩
  else
    let sampled := c.sampled config o
    let latched := !c.protocol.isKnown && sampled.protocol.isKnown
    let moved := sampled.move config control force
      { timestamp := o.timestamp
        operation := o.operation
        direction := o.direction
        byteCount := o.byteCount
        content := .staged o.payload
        lengthHeader := sampled.carry.lengthHeader }
    { moved with tally := moved.tally + { protocolsLatched := if latched then 1 else 0 } }

def transferFile (c : Connection) (config : Config) (control : Control) (force : Bool)
    (o : FileTransfer) : Reaction :=
  if !c.address.isTraceable then ⟨c, [], { nonInetSkipped := 1 }⟩
  else
    c.move config control force
      { timestamp := o.timestamp
        operation := .sendfile
        direction := .egress
        byteCount := o.byteCount
        content := .file
        lengthHeader := none }

/-- The last events of a connection. One of another family that never moved a byte leaves silently. -/
def finish (c : Connection) (timestamp : Timestamp) : List Event × Counters :=
  if !c.address.isTraceable && c.total == 0 then ([], { nonInetSkipped := 1 })
  else
    ([ .closed
         { timestamp
           id := c.id
           operation := .close
           written := c.written
           received := c.received },
       .stats (c.report timestamp true) ],
      { statsEvents := 1 })

end FlowTrace.Connection
