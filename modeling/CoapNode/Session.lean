import CoapNode.Node.Firing
import CoapNode.Node.Receiving
/-! A scripted application: one node, the services it created and the messages it kept,
driven step by step. Earlier datagrams, timer events, services and kept messages are named
by position, counted round their lists. Each step reports its result and all that left the
node while it ran. -/
namespace CoapNode

structure Session where
  node : Node
  services : List Service

inductive EventChoice where
  /-- One of those asked for so far. -/
  | position (k : Nat)
  | event (e : TimerEvent)

inductive ServiceSpec where
  | plain (path : String) (handler : Handler)
  | observable (path : String) (handler : Handler) (status : Reading) (renderer : Renderer)
  | probe (p : Probe)

inductive ServiceCall where
  | path
  | registration
  | shutdown
  | register
  | setSubresources (on : Bool)
  | accepts (packet : Message)
  | inspect
  | status
  | setStatus (v : Reading)
  | maxAge
  | setMaxAge (seconds : UInt32)
  | setConfirmable (on : Bool)
  | observerCount
  /-- For every observer whether a notification is due, and whether it is confirmable. -/
  | due (new : Reading) (now : Nat) (standard : Bool)

inductive KeptAction where
  | perform (a : Action)
  | mark (acknowledged answered : Bool)

inductive Step where
  /-- The datagram's id may be replaced by that of an earlier datagram of the node's own. -/
  | receive (peer : NodeId) (bytes : List UInt8) (idOf : Option Nat) (lent : Option (List Nat))
  | fire (choice : EventChoice) (lent : Option (List Nat))
  | send (peer : NodeId) (mode : SendMode) (packet : Message)
  | createService (spec : ServiceSpec)
  | callService (position : Nat) (call : ServiceCall)
  | self
  | now
  | setClock (ticks : Nat) (broken : Bool)
  | setOutcomes (outcomes : List SendOutcome)
  | schedule (after : Nat) (event : TimerEvent)
  | register (path : String)
  | unregister (id : RegistrationId)
  | isRegistered (id : RegistrationId)
  /-- Registers and unregisters a path many times, without a trace in the log. -/
  | churn (path : String) (times : Nat)
  | drawIds (times : Nat)
  | drawTokens (times : Nat)
  | keep (packet : Message) (peer : NodeId)
  | onKept (position : Nat) (action : KeptAction)
  | config
  | inspect

inductive StepResult where
  | silent
  | noTimer
  | noService
  | noKept
  | notObservable
  | isProbe
  | text (s : String)
  | flag (b : Bool)
  | number (n : Nat)
  | registration (id : Option RegistrationId)
  | attempted (result : Except RuntimeError Yield)
  | created (result : Except RuntimeError Nat)
  | time (result : Except RuntimeError Nat)
  /-- A response comes with its position among the kept messages. -/
  | inbound (result : Except RuntimeError Inbound) (position : Nat)
  | reading (v : Reading)
  | due (each : List (Bool × Bool))
  | kept (result : ActionResult) (acknowledged answered : Bool)
  | config (c : Config)

/-- A step's result, and what happened during the step. -/
structure StepReport where
  result : StepResult
  delivered : List Delivery
  scheduled : List ScheduledEvent
  journal : List JournalEntry
  /-- The observers of every observable service after the step. -/
  observers : List (List Observer)
  log : List LogRecord

/-- Counts positions round the list. -/
def cyclic? {α : Type} (xs : List α) (k : Nat) : Option α := xs[k % xs.length]?

def replaceId (bytes other : List UInt8) : List UInt8 :=
  if headerLength ≤ bytes.length && headerLength ≤ other.length then
    bytes.take 2 ++ (other.drop 2).take 2 ++ bytes.drop 4
  else bytes

namespace Radio

/-- Registers and unregisters a path, leaving the log as it was. -/
def churnOnce (r : Radio) (path : String) : Radio × Except RuntimeError RegistrationId :=
  match r.register path with
  | (r', .ok id) => ({ (r'.unregister id).1 with log := r.log }, .ok id)
  | (r', .error e) => ({ r' with log := r.log }, .error e)

/-- Stops at the first failure, and yields the last registration. -/
def churn (r : Radio) (path : String) (last : Option RegistrationId) : Nat → Radio × StepResult
  | 0 => (r, .registration last)
  | times + 1 =>
    match r.churnOnce path with
    | (r, .ok id) => r.churn path (some id) times
    | (r, .error e) => (r, .attempted (.error e))

def drawIds (r : Radio) (last : StepResult) : Nat → Radio × StepResult
  | 0 => (r, last)
  | times + 1 =>
    let (r, id) := r.drawId
    r.drawIds (.number id.val.toNat) times

def drawTokens (r : Radio) (last : StepResult) : Nat → Radio × StepResult
  | 0 => (r, last)
  | times + 1 =>
    let (r, token) := r.drawToken
    r.drawTokens (.text (hexText token.bytes)) times

end Radio

namespace Service

def endpoint? : Service → Option Endpoint
  | plain e => some e
  | observable s => some s.endpoint
  | probe _ => none

def withEndpoint (s : Service) (e : Endpoint) : Service :=
  match s with
  | plain _ => plain e
  | observable s => observable { s with endpoint := e }
  | probe p => probe p

def observable? : Service → Option Observable
  | observable s => some s
  | _ => none

def create (r : Radio) : ServiceSpec → Radio × Except RuntimeError Service
  | .plain path handler =>
    let (r, result) := Endpoint.create r path handler
    (r, result.map plain)
  | .observable path handler status renderer =>
    let (r, result) := Observable.create r path handler status renderer
    (r, result.map observable)
  | .probe p => (r, .ok (probe p))

def callEndpoint (s : Service) (e : Endpoint) (r : Radio) :
    ServiceCall → Option (Service × Radio × StepResult)
  | .path => some (s, r, .text e.path)
  | .registration => some (s, r, .registration e.registration)
  | .shutdown =>
    match s with
    | observable o =>
      let (o, r) := o.shutdown r
      some (observable o, r, .silent)
    | _ =>
      let (e, r) := e.shutdown r
      some (s.withEndpoint e, r, .silent)
  | .register =>
    let (e, r, result) := e.attach r
    some (s.withEndpoint e, r, .attempted (result.map .registration))
  | .setSubresources on => some (s.withEndpoint { e with subresources := on }, r, .silent)
  | .accepts packet => some (s, r, .flag (e.accepts packet))
  | .inspect =>
    some (s, r, .text (match s with
      | observable o => o.inspect
      | _ => e.inspect))
  | _ => none

def callObservable (o : Observable) (r : Radio) : ServiceCall → Observable × Radio × StepResult
  | .status => (o, r, .reading o.status)
  | .setStatus v =>
    let (o, r, result) := o.setStatus r v
    (o, r, .attempted (result.map fun _ => .nothing))
  | .maxAge => (o, r, .number o.maxAge.toNat)
  | .setMaxAge seconds => ({ o with maxAge := seconds }, r, .silent)
  | .setConfirmable on => ({ o with confirmable := on }, r, .silent)
  | .observerCount => (o, r, .number o.observers.length)
  | .due new now standard =>
    (o, r, .due (o.observers.map fun x => (x.due new now, x.confirmable standard)))
  | _ => (o, r, .silent)

def call (s : Service) (r : Radio) (c : ServiceCall) : Service × Radio × StepResult :=
  match s.endpoint? with
  | none => (s, r, .isProbe)
  | some e =>
    match s.callEndpoint e r c with
    | some answer => answer
    | none =>
      match s with
      | observable o =>
        let (o, r, result) := callObservable o r c
        (observable o, r, result)
      | _ => (s, r, .notObservable)

end Service

namespace Session

def start (self : NodeId) (config : Config) (scale : TickScale) : Session :=
  ⟨⟨Radio.start self config { scale }, [], []⟩, []⟩

def withRadio (s : Session) (radio : Radio) : Session := { s with node := { s.node with radio } }

/-- The positions lent for one call: those asked for, or all in order of creation. -/
def lentPositions (s : Session) (lent : Option (List Nat)) : List Nat :=
  (lent.getD (List.range s.services.length)).filter (· < s.services.length)

def lentServices (s : Session) (positions : List Nat) : List Service :=
  positions.filterMap fun i => s.services[i]?

def returnServices (s : Session) (positions : List Nat) (services : List Service) : Session :=
  { s with services := (positions.zip services).foldl (fun all (i, x) => all.set i x) s.services }

def receive (s : Session) (peer : NodeId) (bytes : List UInt8) (idOf : Option Nat)
    (lent : Option (List Nat)) : Session × StepResult :=
  let positions := s.lentPositions lent
  let other := idOf.bind fun k => cyclic? s.node.radio.network.delivered k
  let bytes := other.elim bytes fun d => replaceId bytes d.bytes
  let (node, services, result) := s.node.receive peer bytes (s.lentServices positions)
  let s := { s with node }.returnServices positions services
  let position := s.node.stash.length
  match result with
  | .ok (.response m) =>
    ({ s with node := { s.node with stash := s.node.stash ++ [m] } }, .inbound result position)
  | _ => (s, .inbound result position)

def chosenEvent (s : Session) : EventChoice → Option TimerEvent
  | .position k => (cyclic? s.node.radio.scheduled k).map (·.event)
  | .event e => some e

def fire (s : Session) (choice : EventChoice) (lent : Option (List Nat)) : Session × StepResult :=
  match s.chosenEvent choice with
  | none => (s, .noTimer)
  | some event =>
    let positions := s.lentPositions lent
    let (node, services, result) := s.node.fire event (s.lentServices positions)
    ({ s with node }.returnServices positions services,
      .attempted (result.map fun _ => .nothing))

def createService (s : Session) (spec : ServiceSpec) : Session × StepResult :=
  match Service.create s.node.radio spec with
  | (radio, .error e) => (s.withRadio radio, .created (.error e))
  | (radio, .ok service) =>
    ({ s.withRadio radio with services := s.services ++ [service] },
      .created (.ok s.services.length))

def callService (s : Session) (position : Nat) (call : ServiceCall) : Session × StepResult :=
  let i := position % s.services.length
  match s.services[i]? with
  | none => (s, .noService)
  | some service =>
    let (service, radio, result) := service.call s.node.radio call
    ({ s.withRadio radio with services := s.services.set i service }, result)

def onKept (s : Session) (position : Nat) (action : KeptAction) : Session × StepResult :=
  let i := position % s.node.stash.length
  match s.node.stash[i]? with
  | none => (s, .noKept)
  | some m =>
    let (node, m, result) :=
      match action with
      | .perform a => a.perform s.node m
      | .mark acknowledged answered =>
        (s.node, { m with
          acknowledged := m.acknowledged || acknowledged
          answered := m.answered || answered }, .silent)
    ({ s with node := { node with stash := node.stash.set i m } },
      .kept result m.acknowledged m.answered)

def keep (s : Session) (packet : Message) (peer : NodeId) : Session × StepResult :=
  ({ s with node := { s.node with stash := s.node.stash ++ [Received.fresh packet peer] } },
    .number s.node.stash.length)

def perform (s : Session) (step : Step) : Session × StepResult :=
  let r := s.node.radio
  match step with
  | .receive peer bytes idOf lent => s.receive peer bytes idOf lent
  | .fire choice lent => s.fire choice lent
  | .send peer mode packet =>
    let (r, result) := r.dispatch peer mode packet
    (s.withRadio r, .attempted result)
  | .createService spec => s.createService spec
  | .callService position call => s.callService position call
  | .self => (s, .number r.self)
  | .now => (s, .time r.now)
  | .setClock ticks broken =>
    (s.withRadio { r with clock := { r.clock with ticks, broken } }, .flag !broken)
  | .setOutcomes outcomes =>
    (s.withRadio { r with network := { r.network with outcomes } }, .number r.self)
  | .schedule after event => (s.withRadio (r.schedule after event), .silent)
  | .register path =>
    let (r, result) := r.register path
    (s.withRadio r, .attempted (result.map .registration))
  | .unregister id =>
    let (r, existed) := r.unregister id
    (s.withRadio r, .flag existed)
  | .isRegistered id => (s, .flag (r.isRegistered id))
  | .churn path times =>
    let (r, result) := r.churn path none times
    (s.withRadio r, result)
  | .drawIds times =>
    let (r, result) := r.drawIds .silent times
    (s.withRadio r, result)
  | .drawTokens times =>
    let (r, result) := r.drawTokens .silent times
    (s.withRadio r, result)
  | .keep packet peer => s.keep packet peer
  | .onKept position action => s.onKept position action
  | .config => (s, .config r.config)
  | .inspect => (s, .text r.inspect)

def observers (s : Session) : List (List Observer) :=
  s.services.filterMap fun x => x.observable?.map (·.observers)

/-- Performs a step and reports what happened meanwhile. -/
def advance (s : Session) (step : Step) : Session × StepReport :=
  let delivered := s.node.radio.network.delivered.length
  let scheduled := s.node.radio.scheduled.length
  let quiet := { s with
    node := { s.node with journal := [], radio := { s.node.radio with log := [] } } }
  let (s, result) := quiet.perform step
  let radio := s.node.radio
  (s, {
    result
    delivered := radio.network.delivered.drop delivered
    scheduled := radio.scheduled.drop scheduled
    journal := s.node.journal
    observers := s.observers
    log := radio.log })

/-- A step has no outcome once a delay had to be drawn from an empty range. -/
def step? (s : Session) (step : Step) : Option (Session × StepReport) :=
  let (s, report) := s.advance step
  if s.node.radio.impossibleDelay then none else some (s, report)

/-- Reports every step, if all have an outcome. -/
def run? (s : Session) : List Step → Option (List StepReport)
  | [] => some []
  | step :: rest =>
    match s.step? step with
    | none => none
    | some (s, report) => (s.run? rest).map (report :: ·)

end Session
end CoapNode
