import CoapNode.Radio.Sending
/-! What handlers do, and a node: a radio together with what the application wrote down while its
handlers ran. An action that fails does not stop the next. -/
namespace CoapNode

inductive SendMode where
  | asIs
  | freshId
  | request
  deriving DecidableEq, Repr

inductive Action where
  | reply (code : Code) (payload : List UInt8)
  | respond (packet : Message)
  | acknowledge
  /-- Replies with the request's path. -/
  | echoPath
  /-- Counts the message as acknowledged without sending anything. -/
  | markAcknowledged
  | markAnswered
  /-- Counts the message as neither acknowledged nor answered. -/
  | unmark
  /-- Changes the message at hand. -/
  | rewrite (packet : Message) (peer : NodeId)
  /-- Keeps a copy of the message as it is now. -/
  | stash
  | send (peer : NodeId) (mode : SendMode) (packet : Message)
  | register (path : String)
  | unregister (id : RegistrationId)
  | schedule (after : Nat) (event : TimerEvent)
  | drawId
  | drawToken
  deriving DecidableEq, Repr

inductive Yield where
  | nothing
  | id (i : MessageId)
  | token (t : ShortBytes)
  | registration (i : RegistrationId)

inductive ActionResult where
  | silent
  | existed (b : Bool)
  | unreadablePath (e : CodecError)
  | attempted (result : Except RuntimeError Yield)

inductive JournalEntry where
  | handled (path : String) (peer : NodeId) (id : MessageId)
  | acted (action : Action) (result : ActionResult) (acknowledged answered : Bool)
  | offered (peer : NodeId) (id : MessageId)
  | timerFired (id : RegistrationId)
  | peerReset (peer : NodeId) (token : ShortBytes)
  | unmatchedReset (peer : NodeId) (id : MessageId)
  | expired (peer : NodeId) (token : ShortBytes)

structure Node where
  radio : Radio
  journal : List JournalEntry
  stash : List Received

namespace Node

def record (n : Node) (e : JournalEntry) : Node := { n with journal := n.journal ++ [e] }

def note (n : Node) (severity : Severity) (text : String) : Node :=
  { n with radio := n.radio.note severity text }

end Node

def Radio.dispatch (r : Radio) (peer : NodeId) (mode : SendMode) (packet : Message) :
    Radio × Except RuntimeError Yield :=
  match mode with
  | .asIs =>
    let (r, result) := r.send peer packet
    (r, result.map fun _ => .nothing)
  | .freshId =>
    let (r, result) := r.sendFresh peer packet
    (r, result.map .id)
  | .request =>
    let (r, result) := r.sendRequest peer packet
    (r, result.map .token)

namespace Action

def answered (n : Node) : Radio × Received × Except RuntimeError Unit →
    Node × Received × ActionResult
  | (radio, m, result) => ({ n with radio }, m, .attempted (result.map fun _ => .nothing))

def perform (a : Action) (n : Node) (m : Received) : Node × Received × ActionResult :=
  match a with
  | reply code payload => answered n (n.radio.reply m code payload)
  | respond packet => answered n (n.radio.respond m packet)
  | acknowledge => answered n (n.radio.acknowledge m)
  | echoPath =>
    match m.packet.uriPath with
    | .ok path => answered n (n.radio.reply m Code.content (textBytes path))
    | .error e => (n, m, .unreadablePath e)
  | markAcknowledged => (n, { m with acknowledged := true }, .silent)
  | markAnswered => (n, { m with answered := true }, .silent)
  | unmark => (n, { m with acknowledged := false, answered := false }, .silent)
  | rewrite packet peer => (n, { m with packet, peer }, .silent)
  | stash => ({ n with stash := n.stash ++ [m] }, m, .silent)
  | send peer mode packet =>
    let (radio, result) := n.radio.dispatch peer mode packet
    ({ n with radio }, m, .attempted result)
  | register path =>
    let (radio, result) := n.radio.register path
    ({ n with radio }, m, .attempted (result.map .registration))
  | unregister id =>
    let (radio, existed) := n.radio.unregister id
    ({ n with radio }, m, .existed existed)
  | schedule after event => ({ n with radio := n.radio.schedule after event }, m, .silent)
  | drawId =>
    let (radio, id) := n.radio.drawId
    ({ n with radio }, m, .attempted (.ok (.id id)))
  | drawToken =>
    let (radio, token) := n.radio.drawToken
    ({ n with radio }, m, .attempted (.ok (.token token)))

/-- Performs every action in order and writes down each result with the message's flags
after it. -/
def performAll (actions : List Action) (n : Node) (m : Received) : Node × Received :=
  actions.foldl (fun (n, m) a =>
    let (n, m, result) := a.perform n m
    (n.record (.acted a result m.acknowledged m.answered), m)) (n, m)

end Action

/-- What a handler does with a message. It may choose by anything: the outcome of each action
follows from the node and the message, and as every call is written down no two calls in a run
find the same journal, so that its memory and its surroundings are accounted for as well. It has
the radio's own operations at its disposal, but does not call the radio for another datagram or
event meanwhile, and does not reach for the network or the timer behind the radio. -/
abbrev Handler := Node → Received → List Action

namespace Handler

def fixed (actions : List Action) : Handler := fun _ _ => actions

def run (h : Handler) (n : Node) (m : Received) : Node × Received :=
  Action.performAll (h n m) n m

end Handler
end CoapNode
