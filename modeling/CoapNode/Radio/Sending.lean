import CoapNode.Packet.Datagram
import CoapNode.Radio
/-! Sending messages and answering received ones. A confirmable message that was sent
enters the history of unacknowledged messages together with the event that will retransmit
it. When sending fails nothing else has changed, counters apart. -/
namespace CoapNode

/-- A message from a peer, and whether it was acknowledged and answered. -/
structure Received where
  packet : Message
  peer : NodeId
  acknowledged : Bool
  answered : Bool
  deriving DecidableEq, Repr

def Received.fresh (packet : Message) (peer : NodeId) : Received := ⟨packet, peer, false, false⟩

def datagramBuffer : Nat := headerLength + 128 + 1

def emptyMessage (kind : MessageKind) (id : MessageId) : Message :=
  { Packet.fresh 128 with kind, id }

namespace Radio

def transmit (r : Radio) (peer : NodeId) (packet : Message) (activity : Activity) :
    Radio × Except RuntimeError Unit :=
  match packet.serialize (List.replicate datagramBuffer 0) with
  | .error e => (r, .error ⟨.codec e, activity⟩)
  | .ok (buffer, length) =>
    let r := r.note .trace ("-> " ++ toString peer ++ " " ++ packet.summary)
    let bytes := buffer.take length
    let (network, refusal) := r.network.send peer bytes
    let r := { r with network }.recordTransmission ⟨peer, packet, bytes, activity, refusal⟩
    match refusal with
    | none => (r, .ok ())
    | some code => (r, .error ⟨.transport code, activity⟩)

def track (r : Radio) (peer : NodeId) (packet : Message) : Radio :=
  match Backoff.start? r.config.strategy r.config.maxAttempts r.random with
  | none => { r with impossibleDelay := true }
  | some (backoff, random) =>
    let r := { r with random }.schedule backoff.delay (.retransmit packet.id)
    { r with unacknowledged := r.unacknowledged ++ [Unacknowledged.mk peer packet backoff] }

/-- Sends a packet as it is. When the history is full a confirmable packet is not sent. -/
def send (r : Radio) (peer : NodeId) (packet : Message) : Radio × Except RuntimeError Unit :=
  let confirmable := packet.kind == .confirmable
  if confirmable && sentHistory ≤ r.unacknowledged.length then
    (r.note .warn ("not sending " ++ packet.id.inspect ++ ": too many unacknowledged messages"),
      .error ⟨.historyFull, .sending packet.id⟩)
  else
    match r.transmit peer packet (.sending packet.id) with
    | (r, .error e) => (r, .error e)
    | (r, .ok _) => (if confirmable then r.track peer packet else r, .ok ())

def sendFresh (r : Radio) (peer : NodeId) (packet : Message) :
    Radio × Except RuntimeError MessageId :=
  let (r, id) := r.drawId
  match r.send peer { packet with id } with
  | (r, .ok _) => (r, .ok id)
  | (r, .error e) => (r, .error e)

/-- Sends a packet under a fresh id with a fresh token, which its response will carry. -/
def sendRequest (r : Radio) (peer : NodeId) (packet : Message) :
    Radio × Except RuntimeError ShortBytes :=
  let (r, token) := r.drawToken
  match packet.setToken token with
  | .error e => (r, .error ⟨.codec e, .sending packet.id⟩)
  | .ok packet =>
    match r.sendFresh peer packet with
    | (r, .ok _) => (r, .ok token)
    | (r, .error e) => (r, .error e)

def storeResponse (r : Radio) (peer : NodeId) (id : MessageId) (response : Message) : Radio :=
  match r.remembered.findIdx? fun s => s.peer == peer && s.id == id with
  | none => r
  | some i =>
    { r with remembered := r.remembered.modify i fun s => { s with response := some response } }

/-- A response rides on the acknowledgement of a confirmable message that has none yet. To
a message that is not confirmable it is not confirmable either; else it is a confirmable
message of its own. -/
def addressResponse (r : Radio) (m : Received) (response : Message) : Radio × Message :=
  match m.packet.kind, m.acknowledged with
  | .confirmable, false => (r, { response with kind := .acknowledgement, id := m.packet.id })
  | .nonConfirmable, _ =>
    let (r, id) := r.drawId
    (r, { response with kind := .nonConfirmable, id })
  | _, _ =>
    let (r, id) := r.drawId
    (r, { response with kind := .confirmable, id })

def respond (r : Radio) (m : Received) (response : Message) :
    Radio × Received × Except RuntimeError Unit :=
  match response.setToken m.packet.token with
  | .error e => (r, m, .error ⟨.codec e, .sending m.packet.id⟩)
  | .ok response =>
    let (r, response) := r.addressResponse m response
    match r.send m.peer response with
    | (r, .error e) => (r, m, .error e)
    | (r, .ok _) =>
      let acknowledged := m.acknowledged || response.kind == .acknowledgement
      (r.storeResponse m.peer m.packet.id response,
        { m with acknowledged, answered := true }, .ok ())

def reply (r : Radio) (m : Received) (code : Code) (payload : List UInt8) :
    Radio × Received × Except RuntimeError Unit :=
  match { Packet.fresh 128 with code }.setPayload payload with
  | .error e => (r, m, .error ⟨.codec e, .sending m.packet.id⟩)
  | .ok packet => r.respond m packet

def acknowledge (r : Radio) (m : Received) : Radio × Received × Except RuntimeError Unit :=
  match r.transmit m.peer (emptyMessage .acknowledgement m.packet.id) (.sending m.packet.id) with
  | (r, .ok _) => (r, { m with acknowledged := true }, .ok ())
  | (r, .error e) => (r, m, .error e)

end Radio
end CoapNode
