import CoapNode.Header
/-! A clock that counts ticks, and the events a radio asks to be woken for. -/
namespace CoapNode

inductive TickScale where
  | millisecond
  | microsecond
  | second
  /-- One part in 32768 of a second. -/
  | crystal
  deriving DecidableEq, Repr, Inhabited

structure Clock where
  scale : TickScale := .millisecond
  ticks : Nat := 0
  /-- A broken clock cannot be read. -/
  broken : Bool := false
  deriving DecidableEq, Repr, Inhabited

def word64? (n : Nat) : Option Nat := if n < UInt64.size then some n else none

/-- Milliseconds since the clock's start, rounded down. A product that sixty-four bits do
not hold has no answer. -/
def Clock.now? (c : Clock) : Option Nat :=
  if c.broken then none
  else
    match c.scale with
    | .millisecond => some c.ticks
    | .microsecond => some (c.ticks / 1000)
    | .second => word64? (c.ticks * 1000)
    | .crystal => (word64? (c.ticks * 125)).map (· / 4096)

structure RegistrationId where
  val : UInt16
  deriving DecidableEq, Repr, Inhabited

/-- Ids wrap around. -/
def RegistrationId.next (i : RegistrationId) : RegistrationId := ⟨i.val + 1⟩

inductive TimerEvent where
  /-- The confirmable message with this id may have to be sent again. -/
  | retransmit (id : MessageId)
  /-- The status of the resource registered under this id is about to get stale. -/
  | maxAge (id : RegistrationId)
  deriving DecidableEq, Repr, Inhabited

end CoapNode
