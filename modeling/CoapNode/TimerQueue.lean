import CoapNode.Clock
/-! A queue of events with deadlines. Of the events that elapsed the one with the smallest
deadline leaves first, and of those the one that was scheduled first. -/
namespace CoapNode

structure Deadline where
  time : Nat
  event : TimerEvent
  deriving DecidableEq, Repr

/-- In the order of scheduling. -/
structure TimerQueue where
  deadlines : List Deadline
  deriving DecidableEq, Repr

namespace TimerQueue

def empty : TimerQueue := ⟨[]⟩

def schedule (q : TimerQueue) (now after : Nat) (event : TimerEvent) : TimerQueue :=
  ⟨q.deadlines ++ [Deadline.mk (now + after) event]⟩

def nextDeadline? (q : TimerQueue) : Option Nat := (q.deadlines.map (·.time)).min?

/-- The position of the earliest deadline that passed, the first of equals. -/
def earliest? (now : Nat) : List Deadline → Option (Nat × Nat)
  | [] => none
  | d :: rest =>
    let later := (earliest? now rest).map fun (i, time) => (i + 1, time)
    if d.time ≤ now then
      match later with
      | some (i, time) => if d.time ≤ time then some (0, d.time) else some (i, time)
      | none => some (0, d.time)
    else later

def pop (q : TimerQueue) (now : Nat) : TimerQueue × Option TimerEvent :=
  match earliest? now q.deadlines with
  | none => (q, none)
  | some (i, _) => (⟨q.deadlines.eraseIdx i⟩, (q.deadlines[i]?).map (·.event))

end TimerQueue
end CoapNode
