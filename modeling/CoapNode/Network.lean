/-! The network as a node sees it: what became of each datagram it offered. -/
namespace CoapNode

abbrev NodeId := Nat

inductive SendOutcome where
  | accepted
  /-- Not now: the same datagram is offered again. -/
  | busy
  | failed (code : Nat)
  deriving DecidableEq, Repr

structure Delivery where
  peer : NodeId
  bytes : List UInt8
  deriving DecidableEq, Repr

structure Network where
  /-- What will become of the next datagrams; after the last, all are accepted. -/
  outcomes : List SendOutcome := []
  /-- Accepted datagrams, the oldest first. -/
  delivered : List Delivery := []
  deriving DecidableEq, Repr, Inhabited

namespace Network

/-- The first outcome that is not busy, and the outcomes after it. -/
def settle : List SendOutcome → Option Nat × List SendOutcome
  | [] => (none, [])
  | .accepted :: rest => (none, rest)
  | .failed code :: rest => (some code, rest)
  | .busy :: rest => settle rest

/-- Offers a datagram until it is accepted or refused; a refusal is a number. -/
def send (n : Network) (peer : NodeId) (bytes : List UInt8) : Network × Option Nat :=
  match settle n.outcomes with
  | (some code, outcomes) => ({ n with outcomes }, some code)
  | (none, outcomes) => ({ outcomes, delivered := n.delivered ++ [⟨peer, bytes⟩] }, none)

end Network
end CoapNode
