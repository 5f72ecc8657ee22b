import CoapNode.Network
import CoapNode.PeerAddress
/-! Addresses of peers and the small ids that stand for them. Ids are handed out in order
from one on, zero being the node itself, and are never taken back. -/
namespace CoapNode

structure PeerTable (α : Type) where
  /-- The address of each id that there is, the first belonging to id one. -/
  slots : List (Option α)

namespace PeerTable

variable {α β : Type}

def empty (capacity : Nat) : PeerTable α := ⟨List.replicate capacity none⟩

def maxId : Nat := 65535

/-- The id that a position in the table stands for. -/
def id? (position : Nat) : Option NodeId := if position < maxId then some (position + 1) else none

/-- The id of an address, a new one if it is not known and there is room. -/
def peer [BEq α] (t : PeerTable α) (address : α) : PeerTable α × Option NodeId :=
  match t.slots.findIdx? (· == some address) with
  | some i => (t, id? i)
  | none =>
    match t.slots.findIdx? (·.isNone) with
    | none => (t, none)
    | some i => (⟨t.slots.set i (some address)⟩, id? i)

/-- The address that was given an id. Nothing has id zero. -/
def address? (t : PeerTable α) : NodeId → Option α
  | 0 => none
  | i + 1 => t.slots[i]?.join

def assigned (t : PeerTable α) : Nat := t.slots.countP (·.isSome)

/-- The id of an address that is kept in another form. -/
def peerOf [BEq β] (keeping : Keeping α β) (t : PeerTable β) (address : α) :
    PeerTable β × Option NodeId := t.peer (keeping.keep address)

def addressOf? (keeping : Keeping α β) (t : PeerTable β) (id : NodeId) : Option α :=
  (t.address? id).map keeping.restore

end PeerTable
end CoapNode
