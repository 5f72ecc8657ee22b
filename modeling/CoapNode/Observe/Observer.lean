import CoapNode.Network
import CoapNode.Observe.Condition
import CoapNode.Packet.Printing
/-! A peer that observes a resource, and what it was told last. -/
namespace CoapNode

structure Observer where
  peer : NodeId
  /-- The token of the request that registered, which every notification carries. -/
  token : ShortBytes
  /-- The message id noted for the latest notification. -/
  lastId : MessageId
  /-- The clock reading taken for the latest notification. -/
  timestamp : Nat
  /-- The status the latest notification carried. -/
  lastValue : Reading
  conditions : List Condition

namespace Observer

/-- Every condition has to hold; a clock that went back counts as no time. -/
def due (o : Observer) (new : Reading) (now : Nat) : Bool :=
  o.conditions.all fun c => c.holds new o.lastValue (now - o.timestamp)

/-- Without conditions the resource decides; else any condition may ask for it. -/
def confirmable (o : Observer) (standard : Bool) : Bool :=
  if o.conditions.isEmpty then standard else o.conditions.any (·.confirmable)

def inspect (o : Observer) : String :=
  recordText "Observer" [
    ("peer", toString o.peer),
    ("token", o.token.inspect),
    ("last_mid", o.lastId.inspect),
    ("timestamp_ms", toString o.timestamp),
    ("last_value", o.lastValue.inspect),
    ("conditions", bracketed (o.conditions.map (·.inspect)))]

end Observer
end CoapNode
