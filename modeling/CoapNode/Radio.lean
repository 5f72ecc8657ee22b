import CoapNode.Config
import CoapNode.Log
import CoapNode.Network
import CoapNode.Path
import CoapNode.RuntimeError
/-! A radio's state: its counters and generator, the registered resources, the messages
that await an acknowledgement, and the messages received lately. Around them stand the
network, the clock, the timer events asked for and the log written so far, all as data. -/
namespace CoapNode

def maxResources : Nat := 8

def sentHistory : Nat := 8

/-- Received messages that are remembered to recognize duplicates. -/
def receivedHistory : Nat := 16

structure Resource where
  id : RegistrationId
  path : String
  deriving DecidableEq, Repr

/-- A confirmable message that was not acknowledged yet. -/
structure Unacknowledged where
  peer : NodeId
  packet : Message
  backoff : Backoff
  deriving DecidableEq, Repr

/-- A message received lately, and the response it got. -/
structure Remembered where
  peer : NodeId
  id : MessageId
  response : Option Message
  deriving DecidableEq, Repr

/-- A datagram offered to the network, with the message it holds, and the number of the
refusal if it was refused. -/
structure Transmission where
  peer : NodeId
  packet : Message
  bytes : List UInt8
  activity : Activity
  refusal : Option Nat
  deriving DecidableEq, Repr

structure ScheduledEvent where
  /-- Milliseconds to wait. -/
  after : Nat
  event : TimerEvent
  deriving DecidableEq, Repr

structure Radio where
  self : NodeId
  config : Config
  random : Random
  nextId : MessageId
  nextToken : UInt16
  nextRegistration : RegistrationId
  resources : List Resource
  unacknowledged : List Unacknowledged
  /-- The oldest first. -/
  remembered : List Remembered
  network : Network
  /-- Every datagram ever offered, the oldest first. -/
  transmissions : List Transmission
  clock : Clock
  /-- Every event ever asked for, the oldest first. -/
  scheduled : List ScheduledEvent
  log : List LogRecord
  /-- A delay was drawn from an empty range; what follows has no meaning. -/
  impossibleDelay : Bool
  deriving DecidableEq, Repr

namespace Radio

/-- The first message id and the first token count are drawn from the generator. -/
def start (self : NodeId) (config : Config) (clock : Clock) : Radio :=
  let (id, random) := (Random.ofSeed config.randomSeed).nextUInt16
  let (token, random) := random.nextUInt16
  { self, config, random, clock
    nextId := ⟨id⟩
    nextToken := token
    nextRegistration := ⟨0⟩
    resources := []
    unacknowledged := []
    remembered := []
    network := {}
    transmissions := []
    scheduled := []
    log := []
    impossibleDelay := false }

def note (r : Radio) (severity : Severity) (text : String) : Radio :=
  { r with log := r.log ++ [LogRecord.mk severity text] }

def schedule (r : Radio) (after : Nat) (event : TimerEvent) : Radio :=
  { r with scheduled := r.scheduled ++ [ScheduledEvent.mk after event] }

def recordTransmission (r : Radio) (t : Transmission) : Radio :=
  { r with transmissions := r.transmissions ++ [t] }

def now (r : Radio) : Except RuntimeError Nat :=
  match r.clock.now? with
  | some ms => .ok ms
  | none => .error ⟨.clock, .receiving⟩

def isRegistered (r : Radio) (id : RegistrationId) : Bool := r.resources.any fun x => x.id == id

def register (r : Radio) (path : String) : Radio × Except RuntimeError RegistrationId :=
  if r.resources.any (fun x => relatePaths x.path path == .equal) then
    (r, .error ⟨.alreadyRegistered, .registering⟩)
  else if maxResources ≤ r.resources.length then
    (r.note .warn ("cannot register /" ++ trimSlashes path ++ ": resource table full"),
      .error ⟨.resourcesFull, .registering⟩)
  else
    let id := r.nextRegistration
    let r := { r with
      nextRegistration := id.next
      resources := r.resources ++ [Resource.mk id path] }
    (r.note .debug ("registered /" ++ trimSlashes path ++ " as " ++ id.inspect), .ok id)

def unregister (r : Radio) (id : RegistrationId) : Radio × Bool :=
  ({ r with resources := r.resources.filter fun x => x.id != id }, r.isRegistered id)

def drawId (r : Radio) : Radio × MessageId := ({ r with nextId := r.nextId.next }, r.nextId)

def highByte (n : UInt16) : UInt8 := (n >>> 8).toUInt8

def lowByte (n : UInt16) : UInt8 := n.toUInt8

/-- A fresh token: the configured beginning and a count. -/
def drawToken (r : Radio) : Radio × ShortBytes :=
  let seed := r.config.tokenSeed
  let n := r.nextToken
  ({ r with nextToken := n + 1 }, ⟨[highByte seed, lowByte seed, highByte n, lowByte n],
    by simp⟩)

end Radio

namespace Strategy

def inspect : Strategy → String
  | exponential low high => recordText "Exponential" [
      ("init_min", wrapped "Milliseconds" (toString low)),
      ("init_max", wrapped "Milliseconds" (toString high))]
  | delay low high => recordText "Delay" [
      ("min", wrapped "Milliseconds" (toString low)),
      ("max", wrapped "Milliseconds" (toString high))]

end Strategy

namespace Config

def inspect (c : Config) : String :=
  recordText "Config" [
    ("con", recordText "Con" [
      ("unacked_retry_strategy", c.strategy.inspect),
      ("max_attempts", wrapped "Attempts" (toString c.maxAttempts))]),
    ("msg", recordText "Msg" [
      ("token_seed", toString c.tokenSeed.toNat),
      ("prng_seed", toString c.randomSeed.toNat)]),
    ("observe", recordText "Observe" [
      ("max_age_seconds", toString c.maxAge.toNat),
      ("notifications_confirmable", boolText c.confirmable)])]

end Config

def Resource.inspect (x : Resource) : String :=
  recordText "Resource" [("id", x.id.inspect), ("path", quoted x.path)]

def Radio.inspect (r : Radio) : String :=
  recordText "CoapRadio" [
    ("id", toString r.self),
    ("config", r.config.inspect),
    ("resources", bracketed (r.resources.map (·.inspect))),
    ("unacked", toString r.unacknowledged.length),
    ("remembered", toString r.remembered.length)]

end CoapNode
