import CoapNode.PeerTable
/-! A node that exchanges datagrams with clients on its own host, over the peer table. A
client is told apart from every remote address. Where no route leads to the host itself no
client's datagram leaves, and then the exchange has no outcome at all. -/
namespace CoapNode

inductive ExchangeError where
  /-- No peer has the id. -/
  | unknownId
  /-- The table has no room for the sender. -/
  | tableFull
  /-- No route leads to the receiver. -/
  | unreachable
  deriving DecidableEq, Repr

def ExchangeError.message : ExchangeError → String
  | unknownId => "unknown node id"
  | tableFull => "correspondent table full"
  | unreachable => "Network is unreachable (os error 101)"

inductive Correspondent (α : Type) where
  | remote (a : α)
  | client (k : Nat)
  deriving BEq, Repr

namespace Correspondent

variable {α β : Type}

def map (f : α → β) : Correspondent α → Correspondent β
  | remote a => remote (f a)
  | client k => client k

def keeping (keeping : Keeping α β) : Keeping (Correspondent α) (Correspondent β) :=
  ⟨map keeping.keep, map keeping.restore⟩

end Correspondent

abbrev exchangeForm : AddressForm := .plain

structure PeerExchange where
  table : PeerTable (Correspondent exchangeForm.Socket)
  /-- Whether a route leads to the host itself. -/
  routed : Bool

inductive ExchangeStep where
  | peer (a : Correspondent PeerAddress)
  | addressOf (id : NodeId)
  | self
  /-- Sends to an id that has no address. -/
  | send (id : NodeId)
  /-- Reads when nothing is waiting. -/
  | read
  | fromClient (k : Nat) (bytes : List UInt8) (buffer : Nat)
  | toClient (k : Nat) (id : NodeId) (bytes : List UInt8)

inductive ExchangeResult where
  | id (i : Option NodeId)
  | address (a : Option (Correspondent PeerAddress))
  | sent (result : Except ExchangeError Unit)
  | nothingWaiting
  | arrived (result : Except ExchangeError (NodeId × List UInt8))
  /-- What the client got, if the datagram was for it. -/
  | delivered (result : Except ExchangeError Unit) (bytes : Option (List UInt8))

structure ExchangeReport where
  result : ExchangeResult
  /-- Ids handed out in the step. -/
  assigned : Nat

namespace PeerExchange

def start (capacity : Nat) (routed : Bool) : PeerExchange := ⟨.empty capacity, routed⟩

def peer (x : PeerExchange) (a : Correspondent PeerAddress) : PeerExchange × Option NodeId :=
  let (table, id) := x.table.peerOf (Correspondent.keeping exchangeForm.keeping) a
  ({ x with table }, id)

def address? (x : PeerExchange) (id : NodeId) : Option (Correspondent PeerAddress) :=
  x.table.addressOf? (Correspondent.keeping exchangeForm.keeping) id

/-- Sending fails first for want of an address, then for want of a route. -/
def send (x : PeerExchange) (id : NodeId) : Except ExchangeError (Correspondent PeerAddress) :=
  match x.address? id with
  | none => .error .unknownId
  | some a => if x.routed then .ok a else .error .unreachable

def toClient (x : PeerExchange) (k : Nat) (id : NodeId) (bytes : List UInt8) : ExchangeResult :=
  match x.send id with
  | .error e => .delivered (.error e) none
  | .ok (.client j) => .delivered (.ok ()) (if j = k then some bytes else none)
  | .ok (.remote _) => .delivered (.ok ()) none

/-- A datagram arrives; what the buffer does not hold is cut off. -/
def fromClient (x : PeerExchange) (k : Nat) (bytes : List UInt8) (buffer : Nat) :
    PeerExchange × ExchangeResult :=
  match x.peer (.client k) with
  | (x, some id) => (x, .arrived (.ok (id, bytes.take buffer)))
  | (x, none) => (x, .arrived (.error .tableFull))

def perform (x : PeerExchange) : ExchangeStep → Except ExchangeError (PeerExchange × ExchangeResult)
  | .peer a =>
    let (x, id) := x.peer a
    .ok (x, .id id)
  | .addressOf id => .ok (x, .address (x.address? id))
  | .self => .ok (x, .id (some 0))
  | .send id => .ok (x, .sent ((x.send id).map fun _ => ()))
  | .read => .ok (x, .nothingWaiting)
  | .fromClient k bytes buffer =>
    if x.routed then .ok (x.fromClient k bytes buffer) else .error .unreachable
  | .toClient k id bytes => .ok (x, x.toClient k id bytes)

/-- Reports every step, unless a client's datagram could not leave. -/
def run (x : PeerExchange) : List ExchangeStep → Except ExchangeError (List ExchangeReport)
  | [] => .ok []
  | step :: rest =>
    match x.perform step with
    | .error e => .error e
    | .ok (y, result) =>
      let report := ⟨result, y.table.assigned - x.table.assigned⟩
      (y.run rest).map (report :: ·)

end PeerExchange
end CoapNode
