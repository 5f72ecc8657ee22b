import CoapNode.Service
/-! What comes of a request to read an observable resource, and of an attempt to enter its sender.
An observer is entered once its request was answered with a notification; before that four things
may stand in the way, and then the table is left alone. -/
namespace CoapNode

theorem Radio.respond_message (r : Radio) (m : Received) (response : Message) :
    (r.respond m response).2.1.packet = m.packet ∧ (r.respond m response).2.1.peer = m.peer := by
  unfold respond
  split
  · exact ⟨rfl, rfl⟩
  · simp only
    split <;> exact ⟨rfl, rfl⟩

theorem Radio.respond_of_error {r s : Radio} {m m' : Received} {response : Message}
    {e : RuntimeError} (failed : r.respond m response = (s, m', .error e)) : m' = m := by
  unfold respond at failed
  split at failed
  · cases failed
    rfl
  · simp only at failed
    split at failed <;> cases failed
    rfl

namespace Observable

/-- There is an entry to replace, or place for another. -/
def hasRoom (s : Observable) (peer : NodeId) : Bool :=
  s.isObserving peer || s.observers.length < maxObservers

/-- Writes the entry, and asks for a refresh if none is outstanding. -/
def enter (s : Observable) (r : Radio) (o : Observer) : Observable × Radio :=
  let (s, r) := s.putObserver r o
  if s.pendingRefreshes = 0 then s.scheduleRefresh r else (s, r)

def entry (s : Observable) (m : Received) (now : Nat) (conditions : List Condition) : Observer :=
  ⟨m.peer, m.packet.token, m.packet.id, now, s.status, conditions⟩

/-- All that can come of an attempt to enter the sender of a request. -/
inductive Admits (s : Observable) (n : Node) (m : Received) (conditions : List Condition) :
    Observable × Node × Received × Except RuntimeError Unit → Prop
  | unclocked {e : RuntimeError} (clock : n.radio.now = .error e) :
      Admits s n m conditions (s, n, m, .error e)
  /-- The handler answers. -/
  | full {now : Nat} (clock : n.radio.now = .ok now) (full : s.hasRoom m.peer = false) :
      Admits s n m conditions (s, (s.endpoint.handle n m).1, (s.endpoint.handle n m).2,
        .error ⟨.observersFull, .registering⟩)
  | unbuilt {now : Nat} {e : RuntimeError} (clock : n.radio.now = .ok now)
      (room : s.hasRoom m.peer = true) (unbuilt : s.notification m.packet.token = .error e) :
      Admits s n m conditions (s, n, m, .error e)
  | unsent {now : Nat} {packet : Message} {r : Radio} {e : RuntimeError}
      (clock : n.radio.now = .ok now) (room : s.hasRoom m.peer = true)
      (built : s.notification m.packet.token = .ok packet)
      (failed : n.radio.respond m packet = (r, m, .error e)) :
      Admits s n m conditions (s, { n with radio := r }, m, .error e)
  | entered {now : Nat} {packet : Message} {r : Radio} {m' : Received}
      (clock : n.radio.now = .ok now) (room : s.hasRoom m.peer = true)
      (built : s.notification m.packet.token = .ok packet)
      (done : n.radio.respond m packet = (r, m', .ok ())) :
      Admits s n m conditions ((s.enter r (s.entry m now conditions)).1,
        { n with radio := (s.enter r (s.entry m now conditions)).2 }, m', .ok ())

theorem registerObserver_admits (s : Observable) (n : Node) (m : Received)
    (conditions : List Condition) :
    s.Admits n m conditions (s.registerObserver n m conditions) := by
  have closed : s.hasRoom m.peer = false ↔
      (!s.isObserving m.peer && maxObservers ≤ s.observers.length) = true := by
    simp [hasRoom]
  unfold registerObserver
  split
  · next clock => exact .unclocked clock
  next now clock =>
  split
  · next full => exact .full clock (closed.mpr full)
  next free =>
  have room : s.hasRoom m.peer = true := by
    rw [← Bool.not_eq_false, closed]
    exact free
  simp only
  split
  · next unbuilt => exact .unbuilt clock room unbuilt
  next packet built =>
  split
  · next failed =>
    cases Radio.respond_of_error failed
    exact .unsent clock room built failed
  · next r m' _ done =>
    obtain ⟨same, peer⟩ := n.radio.respond_message m packet
    rw [done] at same peer
    have entered : s.Admits n m conditions _ := .entered clock room built done
    rw [entry, ← same, ← peer] at entered
    rw [← same]
    exact entered

/-- What follows a failure to register: it is logged, and answered by an error if nothing has
answered the request yet and no handler was asked. -/
def afterFailure (s : Observable) (peer : NodeId) (n : Node) (m : Received) (e : RuntimeError) :
    Observable × Node × Received :=
  let n := n.note .warn ("could not register observer " ++ toString peer ++ ": " ++ e.inspect)
  if !m.answered && e.cause ≠ .observersFull then
    (s, replyOrNote n m Code.internalServerError [])
  else (s, n, m)

theorem afterFailure_same (s : Observable) (peer : NodeId) (n : Node) (m : Received)
    (e : RuntimeError) : (s.afterFailure peer n m e).1 = s := by
  unfold afterFailure
  simp only
  split <;> rfl

/-- What follows an attempt to enter the sender. -/
def afterAttempt (m : Received) :
    Observable × Node × Received × Except RuntimeError Unit → Observable × Node × Received
  | (s, n, m, .ok _) => (s, n, m)
  | (s, n, m', .error e) => s.afterFailure m.peer n m' e

theorem receiveGet_of_wants {s : Observable} {m : Received} {conditions : List Condition}
    (parsed : parseConditions [] m.packet.conditions = .ok conditions)
    (wants : ¬ (!m.packet.observe.toBool || conditions.any (·.kind == .cancellation)) = true)
    (n : Node) : s.receiveGet n m = afterAttempt m (s.registerObserver n m conditions) := by
  rw [receiveGet, parsed]
  simp only [if_neg wants]
  generalize s.registerObserver n m conditions = outcome
  obtain ⟨s', n', m', e | _⟩ := outcome
  · simp only [afterAttempt, afterFailure]
  · rfl

/-- All that can come of a request to read the resource. -/
inductive Gets (s : Observable) (n : Node) (m : Received) : Observable × Node × Received → Prop
  | refused {cause : Cause} (parsed : parseConditions [] m.packet.conditions = .error cause) :
      Gets s n m (s, replyOrNote (n.note .warn
        ("rejecting observe request from " ++ toString m.peer ++ ": " ++ cause.inspect)) m
        Code.badOption (textBytes (conditionDiagnostic cause)))
  | stopped {conditions : List Condition}
      (parsed : parseConditions [] m.packet.conditions = .ok conditions)
      (ends : m.packet.observe.toBool = false ∨ ∃ c ∈ conditions, c.kind = .cancellation) :
      Gets s n m (s.stopObserving n m)
  | wanted {conditions : List Condition}
      (parsed : parseConditions [] m.packet.conditions = .ok conditions)
      (observe : m.packet.observe.toBool = true) (kept : ∀ c ∈ conditions, c.kind ≠ .cancellation) :
      Gets s n m (afterAttempt m (s.registerObserver n m conditions))

theorem receiveGet_gets (s : Observable) (n : Node) (m : Received) :
    s.Gets n m (s.receiveGet n m) := by
  cases parsed : parseConditions [] m.packet.conditions with
  | error cause =>
    rw [receiveGet, parsed]
    exact .refused parsed
  | ok conditions =>
    by_cases declines :
      (!m.packet.observe.toBool || conditions.any (·.kind == .cancellation)) = true
    · have left : s.receiveGet n m = s.stopObserving n m := by
        rw [receiveGet, parsed]
        exact if_pos declines
      rw [left]
      exact .stopped parsed (by simpa using declines)
    · have wants : m.packet.observe.toBool = true ∧ ∀ c ∈ conditions, c.kind ≠ .cancellation := by
        simpa using declines
      rw [receiveGet_of_wants parsed declines]
      exact .wanted parsed wants.1 wants.2

end Observable
end CoapNode
