import CoapNode.Service
/-! Timer events that elapsed. A message still unacknowledged is sent again, or given up
on once every attempt was used. -/
namespace CoapNode

namespace Node

/-- Sends an unacknowledged message again. The next event is asked for first, so a failing
network does not end the attempts. -/
def repeatMessage (n : Node) (index : Nat) (entry : Unacknowledged) (delay : Nat)
    (backoff : Backoff) : Node × Except RuntimeError Unit :=
  let id := entry.packet.id
  let r := { n.radio with
    unacknowledged := n.radio.unacknowledged.set index { entry with backoff } }
  let r := r.note .debug
    ("retransmitting " ++ id.inspect ++ " to " ++ toString entry.peer ++ " (attempt " ++
      toString backoff.attempts ++ ")")
  let r := r.schedule delay (.retransmit id)
  let (radio, result) := r.transmit entry.peer entry.packet (.retransmitting id)
  ({ n with radio }, result)

/-- Drops a message that was never acknowledged and tells every service. -/
def giveUp (n : Node) (index : Nat) (entry : Unacknowledged) (services : List Service) :
    Node × List Service :=
  let r := { n.radio with unacknowledged := n.radio.unacknowledged.eraseIdx index }
  let r := r.note .warn
    (entry.packet.id.inspect ++ " to " ++ toString entry.peer ++ " was never acknowledged")
  let (services, n) :=
    Service.forEach (·.expired · entry.peer entry.packet.token) services { n with radio := r }
  (n, services)

/-- Acts on the first unacknowledged message with this id, if there still is one. -/
def retransmit (n : Node) (id : MessageId) (services : List Service) :
    Node × List Service × Except RuntimeError Unit :=
  let index := n.radio.unacknowledged.findIdx fun s => s.packet.id == id
  match n.radio.unacknowledged[index]? with
  | none => (n, services, .ok ())
  | some entry =>
    match entry.backoff.nextAttempt with
    | (some delay, backoff) =>
      let (n, result) := n.repeatMessage index entry delay backoff
      (n, services, result)
    | (none, _) =>
      let (n, services) := n.giveUp index entry services
      (n, services, .ok ())

/-- Handles an elapsed event, lending the services to the radio. The end of a status's
freshness concerns the services with that registration. -/
def fire (n : Node) (event : TimerEvent) (services : List Service) :
    Node × List Service × Except RuntimeError Unit :=
  match event with
  | .retransmit id => n.retransmit id services
  | .maxAge id =>
    let (services, n) := Service.forEach (fun s n =>
      if s.registration = some id then s.timerFired n id else (s, n)) services n
    (n, services, .ok ())

end Node
end CoapNode
