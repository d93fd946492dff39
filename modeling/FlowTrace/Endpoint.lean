import FlowTrace.Protocol

/-!
# Endpoint — directions, roles and how a role is found

The observed process is the client or the server of a connection. The role is given by how the
connection was set up, or else by the direction of the first message of a known kind.
-/

namespace FlowTrace

/-- Which way bytes move, seen from the observed process. -/
inductive Direction
  | egress
  | ingress
  deriving DecidableEq, Repr

inductive Role
  | client
  | server
  | unknown
  deriving DecidableEq, Repr, Inhabited

/-- How a connection came to be observed: `connect` or `accept` returned, or there was traffic on an
untracked handle. -/
inductive RoleHint
  | connect
  | accept
  | implicit
  deriving DecidableEq, Repr

namespace Role

/-- One bit per role, so that a mask can name a set of roles. -/
def bits : Role → UInt8
  | client => 1
  | server => 2
  | unknown => 4

def isResolved (r : Role) : Bool :=
  r != unknown

def ofHint : RoleHint → Role
  | .connect => client
  | .accept => server
  | .implicit => unknown

/-- Clients send requests and receive responses; a message of unknown kind tells nothing. -/
def ofTraffic : Direction → MessageType → Role
  | _, .unknown => unknown
  | .egress, .request | .ingress, .response => client
  | .egress, .response | .ingress, .request => server

end Role

/-! ## Masks -/

/-- The roles for which the data of a protocol is forwarded, as bits. -/
structure TraceMask where
  bits : UInt8
  deriving DecidableEq, Repr

namespace TraceMask

def disabled : TraceMask :=
  ⟨0⟩

def client : TraceMask :=
  ⟨Role.client.bits⟩

def server : TraceMask :=
  ⟨Role.server.bits⟩

def both : TraceMask :=
  ⟨Role.client.bits ||| Role.server.bits⟩

def allows (m : TraceMask) (r : Role) : Bool :=
  m.bits &&& r.bits != 0

end TraceMask

end FlowTrace
