import CoapNode.Retry
/-! What an application may choose for its radio. -/
namespace CoapNode

structure Config where
  /-- Delays between transmissions of a message that is not yet acknowledged. -/
  strategy : Strategy := .exponential 2000 3000
  /-- Transmissions before a message is given up on. -/
  maxAttempts : Nat := 4
  /-- The first two bytes of every token. -/
  tokenSeed : UInt16 := 0
  randomSeed : UInt64 := 0
  /-- Seconds a notification stays fresh, for new observable resources. -/
  maxAge : UInt32 := 60
  /-- Whether notifications after the first are confirmable, for new observable resources. -/
  confirmable : Bool := true
  deriving DecidableEq, Repr

namespace Config

instance : Inhabited Config := ⟨{}⟩

def maxTransmitWait (c : Config) : Nat := c.strategy.maxTime c.maxAttempts

end Config
end CoapNode
