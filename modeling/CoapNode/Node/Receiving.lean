import CoapNode.Service
/-! What becomes of a received datagram. Acknowledgements and resets are matched with the
messages they are for; anything seen before is answered as before; a new request is offered
to the services whose registration is current until one takes it. -/
namespace CoapNode

inductive Inbound where
  /-- Not a message, sent by the node itself, or nobody waited for it. -/
  | dropped
  | duplicate
  /-- Malformed, and the peer was told. -/
  | rejected
  | handled
  /-- A response for the application. -/
  | response (m : Received)

namespace Radio

/-- Enters a message in the history, the oldest entry making room. -/
def remember (r : Radio) (peer : NodeId) (id : MessageId) : Radio :=
  let kept := if receivedHistory ≤ r.remembered.length then r.remembered.drop 1 else r.remembered
  { r with remembered := kept ++ [Remembered.mk peer id none] }

/-- The head of the reply to a malformed request; nothing else is answered. -/
def rejectionHead (r : Radio) (packet : Message) : Option (Radio × Message) :=
  if packet.isRequest then
    match packet.kind with
    | .confirmable => some (r, emptyMessage .acknowledgement packet.id)
    | .nonConfirmable =>
      let (r, id) := r.drawId
      some (r, emptyMessage .nonConfirmable id)
    | _ => none
  else none

def reject (r : Radio) (peer : NodeId) (refusal : Refusal 128) :
    Radio × Except RuntimeError Inbound :=
  if refusal.cause = .notCoap then
    (r.note .warn ("dropping non-CoAP datagram from " ++ toString peer), .ok .dropped)
  else
    let r := r.note .warn
      ("rejecting message from " ++ toString peer ++ ": " ++ refusal.cause.message)
    match r.rejectionHead refusal.remains with
    | none => (r, .ok .dropped)
    | some (r, response) =>
      match { response with code := refusal.remains.fault.code }.setPayload
          (textBytes refusal.cause.message) with
      | .error e => (r, .error ⟨.codec e, .receiving⟩)
      | .ok response =>
        match r.transmit peer response .receiving with
        | (r, .ok _) => (r, .ok .rejected)
        | (r, .error e) => (r, .error e)

/-- A confirmable duplicate gets the stored response again, or an empty acknowledgement. -/
def receiveDuplicate (r : Radio) (peer : NodeId) (packet : Message) (stored : Option Message) :
    Radio × Except RuntimeError Inbound :=
  let r := r.note .debug ("duplicate " ++ packet.id.inspect ++ " from " ++ toString peer)
  if packet.kind = .confirmable then
    match r.transmit peer (stored.getD (emptyMessage .acknowledgement packet.id)) .receiving with
    | (r, .ok _) => (r, .ok .duplicate)
    | (r, .error e) => (r, .error e)
  else (r, .ok .duplicate)

/-- Takes the message that an acknowledgement or reset is for out of the history. -/
def takeUnacknowledged (r : Radio) (peer : NodeId) (id : MessageId) :
    Radio × Option Unacknowledged :=
  match r.unacknowledged.findIdx? fun s => s.peer == peer && s.packet.id == id with
  | none => (r, none)
  | some i => ({ r with unacknowledged := r.unacknowledged.eraseIdx i }, r.unacknowledged[i]?)

end Radio

namespace Node

/-- Asks every service whether it knows a reset message. -/
def askUnmatched (n : Node) (peer : NodeId) (id : MessageId) :
    List Service → Node × List Service × Bool
  | [] => (n, [], false)
  | s :: rest =>
    let (s, n, known) := s.unmatchedReset n peer id
    let (n, rest, others) := n.askUnmatched peer id rest
    (n, s :: rest, known || others)

def receiveReply (n : Node) (peer : NodeId) (packet : Message) (services : List Service) :
    Node × List Service × Inbound :=
  let (radio, sent) := n.radio.takeUnacknowledged peer packet.id
  let n := { n with radio }
  match packet.kind, sent with
  | .reset, some sent =>
    let n := n.note .debug (packet.id.inspect ++ " was reset by " ++ toString peer)
    let (services, n) := Service.forEach (·.peerReset · peer sent.packet.token) services n
    (n, services, .handled)
  | .reset, none =>
    let (n, services, known) := n.askUnmatched peer packet.id services
    (n, services, if known then .handled else .dropped)
  | .acknowledgement, sent =>
    if packet.isResponse then
      (n, services, .response { Received.fresh packet peer with acknowledged := true })
    else (n, services, if sent.isSome then .handled else .dropped)
  | _, _ => (n, services, .dropped)

/-- Offers a request in order until a service takes it. -/
def offerRequest (n : Node) (m : Received) : List Service → Node × Received × List Service × Bool
  | [] => (n, m, [], false)
  | s :: rest =>
    if s.registration.any n.radio.isRegistered then
      let (s, n, m, taken) := s.offer n m
      if taken then (n, m, s :: rest, true)
      else
        let (n, m, rest, taken) := n.offerRequest m rest
        (n, m, s :: rest, taken)
    else
      let (n, m, rest, taken) := n.offerRequest m rest
      (n, m, s :: rest, taken)

/-- Tells the peer when no service took its request. -/
def answerUntaken (n : Node) (request : Message) (m : Received) (taken : Bool) :
    Node × Received × Except RuntimeError Unit :=
  if taken then (n, m, .ok ())
  else
    let n := n.note .debug ("no resource for " ++ request.summary)
    let (radio, m, result) := n.radio.reply m Code.notFound []
    ({ n with radio }, m, result)

def finishRequest (n : Node) (request : Message) (m : Received) :
    Node × Except RuntimeError Inbound :=
  if request.kind = .confirmable && !m.acknowledged then
    match n.radio.acknowledge m with
    | (radio, _, .ok _) => ({ n with radio }, .ok .handled)
    | (radio, _, .error e) => ({ n with radio }, .error e)
  else (n, .ok .handled)

/-- Whatever services made of the message, it is the request that came which is finished. -/
def receiveRequest (n : Node) (m : Received) (services : List Service) :
    Node × List Service × Except RuntimeError Inbound :=
  let request := m.packet
  let (n, m, services, taken) := n.offerRequest m services
  match n.answerUntaken request m taken with
  | (n, _, .error e) => (n, services, .error e)
  | (n, m, .ok _) =>
    let (n, result) := n.finishRequest request m
    (n, services, result)

/-- An empty message is a ping; a confirmable one is answered with a reset. -/
def receivePing (n : Node) (peer : NodeId) (packet : Message) :
    Node × Except RuntimeError Inbound :=
  if packet.kind = .confirmable then
    match n.radio.transmit peer (emptyMessage .reset packet.id) .receiving with
    | (radio, .ok _) => ({ n with radio }, .ok .handled)
    | (radio, .error e) => ({ n with radio }, .error e)
  else (n, .ok .handled)

/-- A confirmable response is acknowledged before the application gets it. -/
def receiveResponse (n : Node) (m : Received) : Node × Except RuntimeError Inbound :=
  if m.packet.kind = .confirmable then
    match n.radio.acknowledge m with
    | (radio, m, .ok _) => ({ n with radio }, .ok (.response m))
    | (radio, _, .error e) => ({ n with radio }, .error e)
  else (n, .ok (.response m))

def receiveNew (n : Node) (peer : NodeId) (packet : Message) (services : List Service) :
    Node × List Service × Except RuntimeError Inbound :=
  let m := Received.fresh packet peer
  if packet.code.isEmpty then
    let (n, result) := n.receivePing peer packet
    (n, services, result)
  else if packet.isRequest then n.receiveRequest m services
  else if packet.isResponse then
    let (n, result) := n.receiveResponse m
    (n, services, result)
  else (n, services, .ok .dropped)

/-- A message that asks for an answer of its own, new or seen before. -/
def receiveOriginal (n : Node) (peer : NodeId) (packet : Message) (services : List Service) :
    Node × List Service × Except RuntimeError Inbound :=
  match n.radio.remembered.find? fun s => s.peer == peer && s.id == packet.id with
  | some seen =>
    let (radio, result) := n.radio.receiveDuplicate peer packet seen.response
    ({ n with radio }, services, result)
  | none => { n with radio := n.radio.remember peer packet.id }.receiveNew peer packet services

def receive (n : Node) (peer : NodeId) (bytes : List UInt8) (services : List Service) :
    Node × List Service × Except RuntimeError Inbound :=
  if peer = n.radio.self then
    (n.note .trace "dropping datagram from ourselves", services, .ok .dropped)
  else
    match Packet.decode 128 bytes with
    | .error refusal =>
      let (radio, result) := n.radio.reject peer refusal
      ({ n with radio }, services, result)
    | .ok packet =>
      let n := n.note .trace ("<- " ++ toString peer ++ " " ++ packet.summary)
      match packet.kind with
      | .acknowledgement | .reset =>
        let (n, services, inbound) := n.receiveReply peer packet services
        (n, services, .ok inbound)
      | .confirmable | .nonConfirmable => n.receiveOriginal peer packet services

end Node
end CoapNode
