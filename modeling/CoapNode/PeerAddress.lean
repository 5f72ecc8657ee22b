/-! Addresses of peers, in two forms. A socket has the one; a table keeps the other, which is built
and read by functions of its own only. Every address is converted on its way into the table and on
its way out. -/
namespace CoapNode

inductive Family (α β : Type) where
  | v4 (a : α)
  | v6 (b : β)
  deriving Repr

abbrev HostAddress := Family (Vector UInt8 4) (Vector UInt16 8)

inductive PeerAddress where
  | v4 (octets : Vector UInt8 4) (port : UInt16)
  | v6 (segments : Vector UInt16 8) (port : UInt16) (flowInfo scopeId : UInt32)
  deriving DecidableEq, Repr

def PeerAddress.ofHost : HostAddress → UInt16 → PeerAddress
  | .v4 octets, port => .v4 octets port
  | .v6 segments, port => .v6 segments port 0 0

/-- The other form: its types, how their values are made, and what can be asked of them. -/
structure AddressForm where
  Host4 : Type
  Host6 : Type
  Socket4 : Type
  Socket6 : Type
  host4 : UInt8 → UInt8 → UInt8 → UInt8 → Host4
  host6 : UInt16 → UInt16 → UInt16 → UInt16 → UInt16 → UInt16 → UInt16 → UInt16 → Host6
  octets : Host4 → Vector UInt8 4
  segments : Host6 → Vector UInt16 8
  /-- A port of a host of either family. -/
  socket : Family Host4 Host6 → UInt16 → Family Socket4 Socket6
  /-- With port, flow information and scope. -/
  socket6 : Host6 → UInt16 → UInt32 → UInt32 → Socket6
  hostOf4 : Socket4 → Host4
  portOf4 : Socket4 → UInt16
  hostOf6 : Socket6 → Host6
  portOf6 : Socket6 → UInt16
  flowInfoOf : Socket6 → UInt32
  scopeIdOf : Socket6 → UInt32
  same4 : Socket4 → Socket4 → Bool
  same6 : Socket6 → Socket6 → Bool

structure Keeping (α β : Type) where
  keep : α → β
  restore : β → α

namespace AddressForm

variable (form : AddressForm)

abbrev Host := Family form.Host4 form.Host6

abbrev Socket := Family form.Socket4 form.Socket6

instance : BEq form.Socket where
  beq
    | .v4 a, .v4 b => form.same4 a b
    | .v6 a, .v6 b => form.same6 a b
    | _, _ => false

def keepHost : HostAddress → form.Host
  | .v4 ip => .v4 (form.host4 ip[0] ip[1] ip[2] ip[3])
  | .v6 ip => .v6 (form.host6 ip[0] ip[1] ip[2] ip[3] ip[4] ip[5] ip[6] ip[7])

def restoreHost : form.Host → HostAddress
  | .v4 host =>
    let ip := form.octets host
    .v4 #v[ip[0], ip[1], ip[2], ip[3]]
  | .v6 host =>
    let ip := form.segments host
    .v6 #v[ip[0], ip[1], ip[2], ip[3], ip[4], ip[5], ip[6], ip[7]]

def keep : PeerAddress → form.Socket
  | .v4 octets port => form.socket (form.keepHost (.v4 octets)) port
  | .v6 segments port flowInfo scopeId =>
    match form.keepHost (.v6 segments) with
    | .v6 host => .v6 (form.socket6 host port flowInfo scopeId)
    | host => form.socket host port

def restore : form.Socket → PeerAddress
  | .v4 s => .ofHost (form.restoreHost (.v4 (form.hostOf4 s))) (form.portOf4 s)
  | .v6 s =>
    match form.restoreHost (.v6 (form.hostOf6 s)) with
    | .v6 segments => .v6 segments (form.portOf6 s) (form.flowInfoOf s) (form.scopeIdOf s)
    | host => .ofHost host (form.portOf6 s)

def keeping : Keeping PeerAddress form.Socket := ⟨form.keep, form.restore⟩

/-- A form of nothing but the parts themselves. -/
def plain : AddressForm where
  Host4 := Vector UInt8 4
  Host6 := Vector UInt16 8
  Socket4 := Vector UInt8 4 × UInt16
  Socket6 := Vector UInt16 8 × UInt16 × UInt32 × UInt32
  host4 := fun a b c d => #v[a, b, c, d]
  host6 := fun a b c d e f g h => #v[a, b, c, d, e, f, g, h]
  octets := id
  segments := id
  socket
    | .v4 host, port => .v4 (host, port)
    | .v6 host, port => .v6 (host, port, 0, 0)
  socket6 := fun host port flowInfo scopeId => (host, port, flowInfo, scopeId)
  hostOf4 := fun (host, _) => host
  portOf4 := fun (_, port) => port
  hostOf6 := fun (host, _) => host
  portOf6 := fun (_, port, _) => port
  flowInfoOf := fun (_, _, flowInfo, _) => flowInfo
  scopeIdOf := fun (_, _, _, scopeId) => scopeId
  same4 := (· == ·)
  same6 := (· == ·)

end AddressForm
end CoapNode
