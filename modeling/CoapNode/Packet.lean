import CoapNode.Header
import CoapNode.ShortBytes
import CoapNode.OptionCoding
/-! A message as header fields and an arena of fixed capacity. The encoded options grow
from the arena's front and the payload sits at its back. Beside the bytes a packet keeps
how many options are encoded, fenceposts included, and where each known option first
occurs; both are recomputed after every change. Fenceposts are not part of the visible
options. -/
namespace CoapNode

structure Packet (capacity : Nat) where
  version : UInt8
  kind : MessageKind
  code : Code
  id : MessageId
  /-- The offset of the first occurrence of each number of the option table, of which
  sixteen bits are kept. -/
  index : List (Option UInt16)
  /-- Encoded options, fenceposts included. -/
  optionCount : Nat
  /-- The encoded options. -/
  region : List UInt8
  payload : List UInt8
  /-- What a diagnostic reply should say after a failed read. -/
  fault : ErrorContext
  deriving DecidableEq, Repr

abbrev Message := Packet 128

def protocolVersion : UInt8 := 1

def emptyIndex : List (Option UInt16) := List.replicate (largestOption + 1) none

/-- What callers see of an option. -/
structure VisibleOption where
  number : OptionNumber
  value : List UInt8
  deriving DecidableEq, Repr

namespace Packet

variable {capacity : Nat}

/-- A confirmable message with code 0.00, id 0 and no content. -/
def fresh (capacity : Nat) : Packet capacity :=
  ⟨protocolVersion, .confirmable, Code.empty, ⟨0⟩, emptyIndex, 0, [], [], {}⟩

instance : Inhabited (Packet capacity) := ⟨fresh capacity⟩

def clear (p : Packet capacity) : Packet capacity :=
  { p with index := emptyIndex, optionCount := 0, region := [], payload := [] }

def payloadStart (p : Packet capacity) : Nat := capacity - p.payload.length

/-- Bytes between options and payload. -/
def free (p : Packet capacity) : Nat := p.payloadStart - p.region.length

/-- Every encoded option, fenceposts included. -/
def entries (p : Packet capacity) : List OptionEntry := walkOptions 0 0 p.region

def visibleEntries (p : Packet capacity) : List OptionEntry :=
  p.entries.filter fun e => !isFencepost e.number

/-- The options, ascending. -/
def options (p : Packet capacity) : List VisibleOption :=
  p.visibleEntries.map fun e => ⟨e.number, e.value⟩

/-- Answered from the index alone. -/
def isSet (p : Packet capacity) (n : OptionNumber) : Bool := (p.index[n]?.getD none).isSome

def segments (p : Packet capacity) (n : OptionNumber) : List (List UInt8) :=
  ((p.entries.dropWhile fun e => e.number < n).takeWhile fun e => e.number == n).map (·.value)

/-- The offset of the first occurrence of each table number that is no fencepost. -/
def indexOf (entries : List OptionEntry) : List (Option UInt16) :=
  (List.range (largestOption + 1)).map fun n =>
    (entries.find? fun e => e.number == n && !isFencepost e.number).map fun e =>
      UInt16.ofNat e.start

def reindex (p : Packet capacity) : Packet capacity :=
  { p with index := indexOf p.entries, optionCount := p.entries.length }

def isRequest (p : Packet capacity) : Bool := p.code.isRequest

def isResponse (p : Packet capacity) : Bool := p.code.isResponse

/-- Same header, same encoded options and same payload; the error context is no part of
a message. -/
def agrees (p q : Packet capacity) : Bool :=
  p.version == q.version && p.kind == q.kind && p.code == q.code && p.id == q.id &&
    p.region == q.region && p.payload == q.payload

end Packet
end CoapNode
