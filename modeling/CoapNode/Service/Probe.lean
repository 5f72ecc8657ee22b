import CoapNode.Handler
/-! A service without a path of its own: it claims a registration, is offered every request
while that is current, and writes down what it is told. -/
namespace CoapNode

structure Probe where
  /-- The registration it claims. -/
  registration : Option RegistrationId
  /-- What it says when offered a request. -/
  accepts : Bool
  /-- What it says when asked about an unknown reset. -/
  knows : Bool
  /-- Whether it listens to anything but requests. -/
  attentive : Bool
  handler : Handler

namespace Probe

def offer (p : Probe) (n : Node) (m : Received) : Node × Received × Bool :=
  let (n, m) := p.handler.run (n.record (.offered m.peer m.packet.id)) m
  (n, m, p.accepts)

def tell (p : Probe) (n : Node) (e : JournalEntry) : Node :=
  if p.attentive then n.record e else n

end Probe
end CoapNode
