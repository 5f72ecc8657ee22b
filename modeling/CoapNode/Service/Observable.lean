import CoapNode.Observe.Observer
import CoapNode.Service.Endpoint
/-! A resource that publishes a status to observers. A request to observe is answered with
a notification; a new status is notified to every observer whose conditions hold; and when
the status is about to get stale every observer is notified anew. -/
namespace CoapNode

def maxObservers : Nat := 8

def maxConditions : Nat := 4

def payloadBuffer : Nat := 64

/-- How a status becomes text, if it can. A converter may write piece by piece, and may look at more
than the status; here it gives the whole text at once, and always the same of one status. -/
abbrev Renderer := Reading → Option String

namespace Renderer

def plain : Renderer := fun v => some v.text

def failing : Renderer := fun _ => none

def repeated (count : Nat) : Renderer := fun _ => some (String.ofList (List.replicate count 'x'))

/-- The payload of a status; text that does not fit the payload buffer fails. -/
def payload? (f : Renderer) (v : Reading) : Option (List UInt8) :=
  (f v).bind fun s => if s.utf8ByteSize ≤ payloadBuffer then some (textBytes s) else none

end Renderer

structure Observable where
  endpoint : Endpoint
  status : Reading
  /-- Seconds a notification stays fresh. -/
  maxAge : UInt32
  /-- Whether observers without conditions get confirmable notifications. -/
  confirmable : Bool
  observers : List Observer
  /-- The observe number of the next notification. -/
  counter : UInt32
  /-- Refreshes that were scheduled and have not fired. -/
  pendingRefreshes : Nat
  renderer : Renderer

namespace Observable

def create (r : Radio) (path : String) (handler : Handler) (status : Reading)
    (renderer : Renderer) : Radio × Except RuntimeError Observable :=
  let config := r.config
  match Endpoint.create r path handler with
  | (r, .error e) => (r, .error e)
  | (r, .ok endpoint) =>
    (r, .ok {
      endpoint, status, renderer
      maxAge := config.maxAge
      confirmable := config.confirmable
      observers := []
      counter := 1
      pendingRefreshes := 0 })

def attach (s : Observable) (r : Radio) :
    Observable × Radio × Except RuntimeError RegistrationId :=
  let (endpoint, r, result) := s.endpoint.attach r
  ({ s with endpoint }, r, result)

def shutdown (s : Observable) (r : Radio) : Observable × Radio :=
  let (endpoint, r) := s.endpoint.shutdown r
  ({ s with endpoint, observers := [], pendingRefreshes := 0 }, r)

/-- Asks for a refresh when the status gets stale; without a registration there is none. -/
def scheduleRefresh (s : Observable) (r : Radio) : Observable × Radio :=
  match s.endpoint.registration with
  | none => (s, r)
  | some id =>
    ({ s with pendingRefreshes := min (s.pendingRefreshes + 1) 65535 },
      r.schedule (s.maxAge.toNat * 1000) (.maxAge id))

/-- The content of a notification; the usual freshness is not stated. -/
def fillNotification (s : Observable) (token : ShortBytes) (payload : List UInt8) :
    Except CodecError Message := do
  let packet ← { Packet.fresh 128 with code := Code.content }.setObserve s.counter
  let packet ← packet.setToken token
  let packet ← if s.maxAge = defaultMaxAge then .ok packet else packet.setMaxAge s.maxAge
  packet.setPayload payload

/-- A notification of the current status, type and id still to be set. -/
def notification (s : Observable) (token : ShortBytes) : Except RuntimeError Message :=
  match s.renderer.payload? s.status with
  | none => .error ⟨.payloadFormat, .notifying⟩
  | some payload =>
    match s.fillNotification token payload with
    | .ok packet => .ok packet
    | .error e => .error ⟨.codec e, .notifying⟩

def sendNotification (s : Observable) (r : Radio) (o : Observer) :
    Radio × Except RuntimeError MessageId :=
  match s.notification o.token with
  | .error e => (r, .error e)
  | .ok packet =>
    let kind := if o.confirmable s.confirmable then .confirmable else .nonConfirmable
    r.sendFresh o.peer { packet with kind }

/-- Notifies one observer, and notes what it was told if that succeeded. -/
def notify (s : Observable) (now : Nat) (r : Radio) (o : Observer) :
    Radio × Observer × Except RuntimeError Unit :=
  match s.sendNotification r o with
  | (r, .ok id) => (r, { o with lastId := id, timestamp := now, lastValue := s.status }, .ok ())
  | (r, .error e) =>
    (r.note .warn ("notifying " ++ toString o.peer ++ " failed: " ++ e.inspect), o, .error e)

/-- Notifies observers in order; of several failures the last is reported. -/
def notifyEach (s : Observable) (now : Nat) (unconditionally : Bool) (r : Radio) :
    List Observer → Radio × List Observer × Except RuntimeError Unit
  | [] => (r, [], .ok ())
  | o :: rest =>
    if unconditionally || o.due s.status now then
      let (r, o, first) := s.notify now r o
      let (r, rest, later) := s.notifyEach now unconditionally r rest
      match later with
      | .ok _ => (r, o :: rest, first)
      | .error e => (r, o :: rest, .error e)
    else
      let (r, rest, result) := s.notifyEach now unconditionally r rest
      (r, o :: rest, result)

/-- Without a readable clock nobody is notified. -/
def notifyObservers (s : Observable) (r : Radio) (unconditionally : Bool) :
    Observable × Radio × Except RuntimeError Unit :=
  match r.now with
  | .error e => (s, r, .error e)
  | .ok now =>
    let (r, observers, result) := s.notifyEach now unconditionally r s.observers
    ({ s with observers }, r, result)

def setStatus (s : Observable) (r : Radio) (status : Reading) :
    Observable × Radio × Except RuntimeError Unit :=
  let (s, r, result) :=
    { s with status, counter := s.counter + 1 }.notifyObservers r false
  let (s, r) := s.scheduleRefresh r
  (s, r, result)

/-- A refresh that is not the last one outstanding is left to the last one. -/
def timerFired (s : Observable) (r : Radio) : Observable × Radio :=
  let s := { s with pendingRefreshes := s.pendingRefreshes - 1 }
  if 0 < s.pendingRefreshes || s.observers.isEmpty then (s, r)
  else
    let (s, r, result) := { s with counter := s.counter + 1 }.notifyObservers r true
    let r :=
      match result with
      | .ok _ => r
      | .error e => r.note .warn ("max-age refresh failed: " ++ e.inspect)
    s.scheduleRefresh r

/-- Drops the observer with this peer and token. -/
def forget (s : Observable) (r : Radio) (peer : NodeId) (token : ShortBytes) :
    Observable × Radio :=
  let observers := s.observers.filter fun o => !(o.peer == peer && o.token == token)
  let r :=
    if observers.length = s.observers.length then r
    else r.note .debug ("dropped observer " ++ toString peer)
  ({ s with observers }, r)

/-- Drops the observer of this peer if the id is the one noted for it. -/
def forgetNotified (s : Observable) (r : Radio) (peer : NodeId) (id : MessageId) :
    Observable × Radio × Bool :=
  match s.observers.find? fun o => o.peer == peer && o.lastId == id with
  | none => (s, r, false)
  | some o =>
    let (s, r) := s.forget r peer o.token
    (s, r, true)

/-- The conditions of a request, the first fault in order winning. -/
def parseConditions (taken : List Condition) : List (List UInt8) → Except Cause (List Condition)
  | [] => .ok taken
  | raw :: rest =>
    match Condition.parse? raw with
    | none => .error .malformedCondition
    | some c =>
      if maxConditions ≤ taken.length then .error .tooManyConditions
      else parseConditions (taken ++ [c]) rest

/-- The entry of the peer is replaced where it stands; a new one comes last. -/
def putObserver (s : Observable) (r : Radio) (o : Observer) : Observable × Radio :=
  match s.observers.findIdx? fun x => x.peer == o.peer with
  | some i => ({ s with observers := s.observers.set i o }, r)
  | none =>
    ({ s with observers := s.observers ++ [o] },
      r.note .debug (toString o.peer ++ " observing"))

def isObserving (s : Observable) (peer : NodeId) : Bool := s.observers.any fun o => o.peer == peer

def registerObserver (s : Observable) (n : Node) (m : Received) (conditions : List Condition) :
    Observable × Node × Received × Except RuntimeError Unit :=
  match n.radio.now with
  | .error e => (s, n, m, .error e)
  | .ok now =>
    if !s.isObserving m.peer && maxObservers ≤ s.observers.length then
      let (n, m) := s.endpoint.handle n m
      (s, n, m, .error ⟨.observersFull, .registering⟩)
    else
      let token := m.packet.token
      match s.notification token with
      | .error e => (s, n, m, .error e)
      | .ok packet =>
        match n.radio.respond m packet with
        | (radio, m, .error e) => (s, { n with radio }, m, .error e)
        | (radio, m, .ok _) =>
          let (s, radio) := s.putObserver radio
            ⟨m.peer, token, m.packet.id, now, s.status, conditions⟩
          let (s, radio) :=
            if s.pendingRefreshes = 0 then s.scheduleRefresh radio else (s, radio)
          (s, { n with radio }, m, .ok ())

/-- Replies when the answer's own failure can only be logged. -/
def replyOrNote (n : Node) (m : Received) (code : Code) (payload : List UInt8) :
    Node × Received :=
  match n.radio.reply m code payload with
  | (radio, m, .ok _) => ({ n with radio }, m)
  | (radio, m, .error e) => ({ n with radio := radio.note .warn e.inspect }, m)

def conditionDiagnostic (c : Cause) : String :=
  match c with
  | .tooManyConditions => "too many conditions"
  | _ => "malformed condition"

/-- The sender stops observing, and the handler answers. -/
def stopObserving (s : Observable) (n : Node) (m : Received) : Observable × Node × Received :=
  let observers := s.observers.filter fun o => o.peer != m.peer
  let n :=
    if observers.length = s.observers.length then n
    else n.note .debug (toString m.peer ++ " stopped observing")
  let s := { s with observers }
  let (n, m) := s.endpoint.handle n m
  (s, n, m)

def receiveGet (s : Observable) (n : Node) (m : Received) : Observable × Node × Received :=
  match parseConditions [] m.packet.conditions with
  | .error cause =>
    let n := n.note .warn
      ("rejecting observe request from " ++ toString m.peer ++ ": " ++ cause.inspect)
    let (n, m) := replyOrNote n m Code.badOption (textBytes (conditionDiagnostic cause))
    (s, n, m)
  | .ok conditions =>
    if !m.packet.observe.toBool || conditions.any (·.kind == .cancellation) then
      s.stopObserving n m
    else
      let peer := m.peer
      match s.registerObserver n m conditions with
      | (s, n, m, .ok _) => (s, n, m)
      | (s, n, m, .error e) =>
        let n := n.note .warn
          ("could not register observer " ++ toString peer ++ ": " ++ e.inspect)
        if !m.answered && e.cause ≠ .observersFull then
          let (n, m) := replyOrNote n m Code.internalServerError []
          (s, n, m)
        else (s, n, m)

def offer (s : Observable) (n : Node) (m : Received) : Observable × Node × Received × Bool :=
  if !s.endpoint.accepts m.packet then (s, n, m, false)
  else if m.packet.code = Code.get then
    let (s, n, m) := s.receiveGet n m
    (s, n, m, true)
  else
    let (n, m) := s.endpoint.handle n m
    (s, n, m, true)

def inspect (s : Observable) : String :=
  recordText "ObservableService" [
    ("service", s.endpoint.inspect),
    ("status", s.status.inspect),
    ("max_age", toString s.maxAge.toNat),
    ("confirmable", boolText s.confirmable),
    ("observers", bracketed (s.observers.map (·.inspect))),
    ("counter", toString s.counter.toNat)]

end Observable
end CoapNode
