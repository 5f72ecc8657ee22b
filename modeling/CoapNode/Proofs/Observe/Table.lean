import CoapNode.Proofs.Observe.Notices
/-! The table of observers through every turn. -/
namespace CoapNode

namespace Radio

theorem takenSince_of_same {r s t : Radio} (same : t.transmissions = s.transmissions) :
    t.takenSince r = s.takenSince r := by
  rw [takenSince, same]
  rfl

theorem takenSince_nil {r s : Radio} (same : s.transmissions = r.transmissions) :
    s.takenSince r = [] := (takes_of_same same).since

end Radio

namespace Observable

variable {s : Observable} {ledger : List Notice}

theorem timerFired_cases (s : Observable) (r : Radio) :
    let spent := { s with pendingRefreshes := s.pendingRefreshes - 1 }
    let told := { spent with counter := s.counter + 1 }.notifyObservers r true
    ((0 < s.pendingRefreshes - 1 ∨ s.observers = []) ∧ s.timerFired r = (spent, r)) ∨
      s.pendingRefreshes - 1 = 0 ∧ s.observers ≠ [] ∧
        ∃ log, s.timerFired r = told.1.scheduleRefresh { told.2.1 with log } := by
  intro spent told
  unfold timerFired
  simp only
  split
  · next idle => exact .inl ⟨by simpa using idle, rfl⟩
  · next due =>
    simp only [Bool.or_eq_true, decide_eq_true_eq, List.isEmpty_iff, not_or] at due
    refine .inr ⟨by omega, due.2, ?_⟩
    split
    · exact ⟨told.2.1.log, rfl⟩
    · exact ⟨_, rfl⟩

theorem published_frame (s : Observable) (r : Radio) (unconditionally : Bool)
    (log : List LogRecord) :
    let told := s.notifyObservers r unconditionally
    let done := told.1.scheduleRefresh { told.2.1 with log }
    done.1.observers = told.1.observers ∧ done.1.renderer = s.renderer ∧
      done.1.status = s.status ∧ done.2.transmissions = told.2.1.transmissions := by
  intro told done
  obtain ⟨observers, renderer, status, transmissions⟩ :=
    told.1.scheduleRefresh_frame { told.2.1 with log }
  have kept : told.1.renderer = s.renderer ∧ told.1.status = s.status := by
    rcases s.notifyObservers_cases r unconditionally with
      ⟨_, -, same⟩ | ⟨_, _, _, _, _, -, -, -, same⟩ <;> simp [told, same]
  exact ⟨observers, renderer.trans kept.1, status.trans kept.2, transmissions⟩

theorem forgetNotified_cases (s : Observable) (r : Radio) (peer : NodeId) (id : MessageId) :
    ((∀ o ∈ s.observers, ¬ (o.peer = peer ∧ o.lastId = id)) ∧
        s.forgetNotified r peer id = (s, r, false)) ∨
      ∃ o ∈ s.observers, o.peer = peer ∧ o.lastId = id ∧ s.forgetNotified r peer id =
        ((s.forget r peer o.token).1, (s.forget r peer o.token).2, true) := by
  unfold forgetNotified
  split
  · next absent =>
    refine .inl ⟨fun o member => ?_, rfl⟩
    simpa using List.find?_eq_none.mp absent o member
  · next o found =>
    have same := List.find?_some found
    simp only [Bool.and_eq_true, beq_iff_eq] at same
    exact .inr ⟨o, List.mem_of_find?_eq_some found, same.1, same.2, rfl⟩

theorem forget_transmissions (s : Observable) (r : Radio) (peer : NodeId) (token : ShortBytes) :
    (s.forget r peer token).2.transmissions = r.transmissions :=
  (s.forget_idle r peer token).transmissions

end Observable

/-! ## Visits -/

namespace Table

variable {s : Observable} {ledger : List Notice}

theorem published (h : Table s ledger) (r : Radio) (unconditionally : Bool) {s' : Observable}
    {r' : Radio} (observers : s'.observers = (s.notifyObservers r unconditionally).1.observers)
    (renderer : s'.renderer = s.renderer) (status : s'.status = s.status)
    (same : r'.transmissions = (s.notifyObservers r unconditionally).2.1.transmissions) :
    Table s' (ledger ++ match r.now with
      | .error _ => []
      | .ok now => (r'.takenSince r).map fun t => ⟨t.peer, t.packet, s'.status, now, none⟩) := by
  rcases s.notifyObservers_cases r unconditionally with
    ⟨e, broken, done⟩ | ⟨now, taken, told, observers', result, clock, takes, tells, done⟩
  · rw [done] at observers
    rw [broken, List.append_nil]
    exact h.of_same observers renderer
  · rw [done] at observers same
    rw [clock, status, Radio.takenSince_of_same same, takes.since]
    exact (h.tells tells).of_same observers renderer

theorem offer (h : Table s ledger) (n : Node) (m : Received) :
    Table (s.offer n m).1 (ledger ++ (Visit.offer n m).notices s) := by
  have serves := s.offer_cases n m
  have silent : (s.registration? m = none ∨ ∃ e, n.radio.now = .error e) →
      (Visit.offer n m).notices s = [] := by
    rintro (other | ⟨e, broken⟩)
    · simp only [Visit.notices, other]
      cases n.radio.now <;> rfl
    · simp only [Visit.notices, broken]
  generalize result : (s.offer n m).1 = s' at serves
  generalize reached : (s.offer n m).2.1 = n' at serves
  cases serves with
  | apart other =>
    rw [silent other, List.append_nil]
    exact h
  | stopped other declines =>
    rw [silent (.inl other), List.append_nil]
    exact h.of_sublist List.filter_sublist rfl
  | failed takes others =>
    have none : (Visit.offer n m).notices s = [] := by
      simp only [Visit.notices, reached, takes.since]
      split
      · rw [List.filter_eq_nil_iff.mpr (by simpa using others), List.map_nil]
      · rfl
    rw [none, List.append_nil]
    exact h
  | @registered r t conditions now registers answers =>
    have entered := (s.enter_frame r (s.entry m now conditions)).2.2
    have one : (Visit.offer n m).notices s =
        [⟨t.peer, t.packet, s.status, now, some m.packet⟩] := by
      simp only [Visit.notices, reached, registers, answers.clock,
        (answers.takes.later entered).since]
      simp [answers.notifies.code]
    rw [one]
    exact h.enter registers answers

theorem notices_silent {v : Visit} (offers : ∀ n m, v ≠ .offer n m)
    (same : (v.done s).2.transmissions = v.radio.transmissions) : v.notices s = [] := by
  cases v with
  | offer n m => exact absurd rfl (offers n m)
  | _ =>
    simp only [Visit.notices, Radio.takenSince_nil same]
    split <;> rfl

theorem called (h : Table s ledger) (r : Radio) (c : ServiceCall) :
    Table (s.called r c).1 (ledger ++ (Visit.call r c).notices s) := by
  have silent : (s.called r c).2.transmissions = r.transmissions →
      (Visit.call r c).notices s = [] := notices_silent (v := .call r c) (by simp)
  cases c with
  | setStatus v =>
    have base : Table { s with status := v, counter := s.counter + 1 } ledger := h.of_same rfl rfl
    let told := { s with status := v, counter := s.counter + 1 }.notifyObservers r false
    obtain ⟨observers, renderer, status, transmissions⟩ := Observable.published_frame
      { s with status := v, counter := s.counter + 1 } r false told.2.1.log
    exact base.published r false observers renderer status transmissions
  | shutdown =>
    rw [silent (s.endpoint.shutdown_idle r).transmissions, List.append_nil]
    exact h.of_sublist (List.nil_sublist _) rfl
  | register =>
    rw [silent (s.endpoint.attach_idle r).transmissions, List.append_nil]
    exact h.of_same rfl rfl
  | _ =>
    rw [silent rfl, List.append_nil]
    exact h.of_same rfl rfl

theorem forget (h : Table s ledger) (r : Radio) (peer : NodeId) (token : ShortBytes) :
    Table (s.forget r peer token).1 ledger := h.of_sublist List.filter_sublist rfl

theorem refresh (h : Table s ledger) (r : Radio) :
    Table (s.timerFired r).1 (ledger ++ (Visit.refresh r).notices s) := by
  rcases s.timerFired_cases r with ⟨-, idle⟩ | ⟨-, -, log, told⟩
  · have none : (Visit.refresh r).notices s = [] := by
      simp only [Visit.notices, Visit.done, Visit.radio, idle, Radio.takenSince_nil]
      cases r.now <;> rfl
    rw [none, List.append_nil, idle]
    exact h.of_same rfl rfl
  · have base :
        Table { s with pendingRefreshes := s.pendingRefreshes - 1, counter := s.counter + 1 }
          ledger := h.of_same rfl rfl
    obtain ⟨observers, renderer, status, transmissions⟩ := Observable.published_frame
      { s with pendingRefreshes := s.pendingRefreshes - 1, counter := s.counter + 1 } r true log
    rw [← told] at observers renderer status transmissions
    exact base.published r true observers renderer status transmissions

theorem visit (h : Table s ledger) (v : Visit) : Table (v.done s).1 (ledger ++ v.notices s) := by
  cases v with
  | offer n m => exact h.offer n m
  | refresh r => exact h.refresh r
  | call r c => exact h.called r c
  | forget r peer token =>
    rw [notices_silent (v := .forget r peer token) (by simp) (s.forget_transmissions r peer token),
      List.append_nil]
    exact h.forget r peer token
  | disown r peer id =>
    rw [notices_silent (v := .disown r peer id) (by simp)
      (s.forgetNotified_idle r peer id).transmissions, List.append_nil]
    rcases s.forgetNotified_cases r peer id with ⟨-, same⟩ | ⟨o, -, -, -, same⟩
    · simp only [Visit.done, same]
      exact h
    · simp only [Visit.done, same]
      exact h.forget r peer o.token

end Table

/-! ## Turns -/

namespace Publisher

theorem table_step {p : Publisher} {ledger : List Notice} (h : Table p.resource ledger) (t : Turn) :
    Table (p.step t).resource (ledger ++ (p.visit? t).elim [] (·.notices p.resource)) := by
  rw [p.step_resource]
  cases p.visit? t with
  | none => rw [Option.elim_none, Option.elim_none, List.append_nil]; exact h
  | some v => exact h.visit v

theorem table_after {p : Publisher} {ledger : List Notice} (h : Table p.resource ledger)
    (turns : List Turn) : Table (p.after turns).resource (ledger ++ p.ledger turns) := by
  induction turns generalizing p ledger with
  | nil =>
    rw [Publisher.ledger, List.append_nil]
    exact h
  | cons t rest ih =>
    have later := ih (table_step h t)
    rw [List.append_assoc] at later
    exact later

theorem created_observers {r r' : Radio} {path : String} {handler : Handler} {status : Reading}
    {renderer : Renderer} {s : Observable}
    (created : Observable.create r path handler status renderer = (r', .ok s)) :
    s.observers = [] ∧ s.pendingRefreshes = 0 := by
  unfold Observable.create at created
  simp only at created
  split at created
  · cases created
  · cases created
    exact ⟨rfl, rfl⟩

theorem table_of_empty {s : Observable} (empty : s.observers = []) : Table s [] := by
  constructor <;> simp [empty]

/-- Whatever a node and an observable resource went through since the resource was created, its
table has at most eight entries of different peers. Each holds at most four conditions, and no
cancellation. Token and conditions are those of the latest request to observe that was answered
with a notification; value and time are those of the latest notification. -/
theorem table_of_turns {n : Node} {r : Radio} {path : String} {handler : Handler}
    {status : Reading} {renderer : Renderer} {s : Observable}
    (created : Observable.create n.radio path handler status renderer = (r, .ok s))
    (elapsed : List TimerEvent) (turns : List Turn) :
    let start : Publisher := ⟨{ n with radio := r }, s, elapsed⟩
    Table (start.after turns).resource (start.ledger turns) :=
  table_after (table_of_empty (created_observers created).1) turns

set_option maxRecDepth 10000 in
/-- A peer asks twice, and gets a new status in between. -/
theorem table_of_two_requests :
    let created := Observable.create (Radio.start 0 {} {}) "a" (.fixed []) (.natural 5)
      Renderer.plain
    let asks := fun id token => [0x43, 1, 0, id, 0x91, 97, 0x10, 0x11, token]
    let turns := [.receive 1 (asks 9 7) [] [], .call (.setStatus (.natural 6)),
      .receive 1 (asks 10 8) [] []]
    ∃ r s, created = (r, .ok s) ∧
      let start : Publisher := ⟨⟨r, [], []⟩, s, []⟩
      (start.after turns).resource.observers.map (fun o => (o.peer, o.token.bytes, o.lastId.val)) =
          [(1, [8], 10)] ∧
        (start.ledger turns).map (fun x => (x.peer, x.packet.payload)) =
          [(1, [53]), (1, [54]), (1, [54])] ∧
        Table (start.after turns).resource (start.ledger turns) :=
  ⟨_, _, rfl, by decide +kernel, by decide +kernel,
    table_of_turns (n := ⟨Radio.start 0 {} {}, [], []⟩) rfl [] _⟩

end Publisher
end CoapNode
