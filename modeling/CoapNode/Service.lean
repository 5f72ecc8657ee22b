import CoapNode.Service.Observable
import CoapNode.Service.Probe
/-! Services, to which a radio offers requests and which it tells of resets, expiries and
timers. The application owns them and lends them to the radio one call at a time. -/
namespace CoapNode

inductive Service where
  | plain (e : Endpoint)
  | observable (s : Observable)
  | probe (p : Probe)

namespace Service

def registration : Service → Option RegistrationId
  | plain e => e.registration
  | observable s => s.endpoint.registration
  | probe p => p.registration

def offer (s : Service) (n : Node) (m : Received) : Service × Node × Received × Bool :=
  match s with
  | plain e =>
    if e.accepts m.packet then
      let (n, m) := e.handle n m
      (plain e, n, m, true)
    else (plain e, n, m, false)
  | observable s =>
    let (s, n, m, taken) := s.offer n m
    (observable s, n, m, taken)
  | probe p =>
    let (n, m, taken) := p.offer n m
    (probe p, n, m, taken)

def timerFired (s : Service) (n : Node) (id : RegistrationId) : Service × Node :=
  match s with
  | plain e => (plain e, n)
  | observable s =>
    let (s, radio) := s.timerFired n.radio
    (observable s, { n with radio })
  | probe p => (probe p, p.tell n (.timerFired id))

/-- A peer reset a message that was still being retransmitted. -/
def peerReset (s : Service) (n : Node) (peer : NodeId) (token : ShortBytes) : Service × Node :=
  match s with
  | plain e => (plain e, n)
  | observable s =>
    let (s, radio) := s.forget n.radio peer token
    (observable s, { n with radio })
  | probe p => (probe p, p.tell n (.peerReset peer token))

/-- A peer reset a message the radio does not know, and the service tells whether it does. -/
def unmatchedReset (s : Service) (n : Node) (peer : NodeId) (id : MessageId) :
    Service × Node × Bool :=
  match s with
  | plain e => (plain e, n, false)
  | observable s =>
    let (s, radio, known) := s.forgetNotified n.radio peer id
    (observable s, { n with radio }, known)
  | probe p => (probe p, p.tell n (.unmatchedReset peer id), p.attentive && p.knows)

def expired (s : Service) (n : Node) (peer : NodeId) (token : ShortBytes) : Service × Node :=
  match s with
  | plain e => (plain e, n)
  | observable s =>
    let (s, radio) := s.forget n.radio peer token
    (observable s, { n with radio })
  | probe p => (probe p, p.tell n (.expired peer token))

def forEach (act : Service → Node → Service × Node) : List Service → Node → List Service × Node
  | [], n => ([], n)
  | s :: rest, n =>
    let (s, n) := act s n
    let (rest, n) := forEach act rest n
    (s :: rest, n)

end Service
end CoapNode
