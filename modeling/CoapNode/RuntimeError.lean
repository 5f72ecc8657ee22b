import CoapNode.Clock
import CoapNode.Packet.Printing
/-! Failures of a running node: a cause, and what the node was doing. -/
namespace CoapNode

inductive Cause where
  | codec (e : CodecError)
  /-- The network refused the datagram with this number. -/
  | transport (code : Nat)
  /-- The clock could not be read. -/
  | clock
  | resourcesFull
  | alreadyRegistered
  /-- Too many confirmable messages await their acknowledgement. -/
  | historyFull
  | observersFull
  | tooManyConditions
  | malformedCondition
  /-- The status could not be rendered into a payload. -/
  | payloadFormat
  deriving DecidableEq, Repr

inductive Activity where
  | registering
  | sending (id : MessageId)
  | receiving
  | notifying
  | retransmitting (id : MessageId)
  deriving DecidableEq, Repr

structure RuntimeError where
  cause : Cause
  activity : Activity
  deriving DecidableEq, Repr

def Cause.label : Cause → String
  | codec _ => "Msg"
  | transport _ => "Transport"
  | clock => "Clock"
  | resourcesFull => "ResourcesFull"
  | alreadyRegistered => "AlreadyRegistered"
  | historyFull => "HistoryFull"
  | observersFull => "ObserversFull"
  | tooManyConditions => "TooManyConditions"
  | malformedCondition => "MalformedCondition"
  | payloadFormat => "PayloadFormat"

def Cause.inspect (c : Cause) : String :=
  match c with
  | codec e => wrapped c.label e.label
  | transport n => wrapped c.label (toString n)
  | _ => c.label

def Activity.label : Activity → String
  | registering => "Registering"
  | sending _ => "Sending"
  | receiving => "Receiving"
  | notifying => "Notifying"
  | retransmitting _ => "Retransmitting"

def Activity.inspect (a : Activity) : String :=
  match a with
  | sending id | retransmitting id => wrapped a.label id.inspect
  | _ => a.label

namespace RuntimeError

def codec? (e : RuntimeError) : Option CodecError :=
  match e.cause with
  | .codec e => some e
  | _ => none

def inspect (e : RuntimeError) : String :=
  recordText "Error" [("what", e.cause.inspect), ("when", e.activity.inspect)]

end RuntimeError

def RegistrationId.inspect (i : RegistrationId) : String :=
  wrapped "RegId" (toString i.val.toNat)

end CoapNode
