import CoapNode.Random
/-! How long to wait for an acknowledgement, and how often to try. All delays are
milliseconds. -/
namespace CoapNode

inductive Strategy where
  /-- The first delay lies in the range and doubles after each attempt. -/
  | exponential (initialMin initialMax : Nat)
  /-- One delay from the range is kept for all attempts. -/
  | delay (min max : Nat)
  deriving DecidableEq, Repr

namespace Strategy

def least : Strategy → Nat
  | exponential low _ | delay low _ => low

def greatest : Strategy → Nat
  | exponential _ high | delay _ high => high

def hasJitter (s : Strategy) : Bool := s.least != s.greatest

/-- The wait after attempt number `attempt` when the first wait is `initial`. -/
def gap (s : Strategy) (initial attempt : Nat) : Nat :=
  match s with
  | delay .. => initial
  | exponential .. => initial <<< (attempt - 1)

/-- The longest time in which every one of the attempts goes unanswered. -/
def maxTime (s : Strategy) : Nat → Nat
  | 0 => 0
  | attempts + 1 => s.maxTime attempts + s.gap s.greatest (attempts + 1)

end Strategy

/-- The attempts made for one message. -/
structure Backoff where
  strategy : Strategy
  /-- The first delay. -/
  initial : Nat
  /-- Transmissions so far. -/
  attempts : Nat
  maxAttempts : Nat
  deriving DecidableEq, Repr

namespace Backoff

def trivial : Backoff := ⟨.delay 0 0, 0, 1, 1⟩

instance : Inhabited Backoff := ⟨trivial⟩

/-- The state after the first transmission; the first delay is drawn if there is a choice.
Fails when the range of delays is empty. -/
def start? (s : Strategy) (maxAttempts : Nat) (r : Random) : Option (Backoff × Random) :=
  if s.hasJitter then
    (r.drawRange? s.least s.greatest).map fun (initial, r) => (⟨s, initial, 1, maxAttempts⟩, r)
  else some (⟨s, s.least, 1, maxAttempts⟩, r)

def delay (b : Backoff) : Nat := b.strategy.gap b.initial b.attempts

def nextAttempt (b : Backoff) : Option Nat × Backoff :=
  if b.maxAttempts ≤ b.attempts then (none, b)
  else
    let b := { b with attempts := b.attempts + 1 }
    (some b.delay, b)

end Backoff
end CoapNode
