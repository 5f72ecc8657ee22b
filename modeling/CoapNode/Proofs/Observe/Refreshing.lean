import CoapNode.Proofs.Node.Registrations
import CoapNode.Proofs.Observe.Accounting
/-! Refreshes of an observable resource. What the resource counts as pending is outstanding
indeed, under the registration it has, and while anybody observes something is pending. -/
namespace CoapNode

theorem count_append_toList {α : Type} [DecidableEq α] (xs : List α) (x : Option α) (a : α) :
    (xs ++ x.toList).count a = xs.count a + if x = some a then 1 else 0 := by
  cases x with
  | none => simp
  | some b => by_cases same : b = a <;> simp [same]

theorem ite_le_of_pos {P : Prop} [Decidable P] {left : Nat} (once : P → 0 < left) :
    (if P then 1 else 0) ≤ left := by
  split
  · next happens => exact once happens
  · exact Nat.zero_le _

/-! ## Turns -/

namespace Publisher

/-- Refreshes that were asked for under a registration and have not elapsed. -/
def outstanding (p : Publisher) (id : RegistrationId) : Nat :=
  p.node.radio.refreshes id - p.elapsed.count (.maxAge id)

/-- Events elapse at most once, with the resource there if they are its own. It registers anew only
when no refresh is pending. -/
structure Punctual (p : Publisher) (t : Turn) : Prop where
  once : ∀ id, (t.operation p.resource).elapses = some (.maxAge id) → 0 < p.outstanding id
  lent : ∀ id services, t = .apart (.fire (.maxAge id) services) →
    p.resource.endpoint.registration ≠ some id
  settled : t = .call .register → ∀ id, p.resource.endpoint.registration = some id →
    p.node.radio.isRegistered id = true ∨ p.resource.pendingRefreshes = 0

def Timely (p : Publisher) : List Turn → Prop
  | [] => True
  | t :: rest => p.Punctual t ∧ (p.step t).Timely rest

/-- What is counted as pending is outstanding, and something is while anybody observes. -/
structure Refreshing (p : Publisher) : Prop where
  balanced : ∀ id, p.elapsed.count (.maxAge id) ≤ p.node.radio.refreshes id
  pending : ∀ id, p.resource.endpoint.registration = some id →
    p.resource.pendingRefreshes ≤ p.outstanding id
  idle : p.resource.endpoint.registration = none → p.resource.pendingRefreshes = 0
  observed : p.resource.observers ≠ [] → 0 < p.resource.pendingRefreshes

variable {p : Publisher} {t : Turn}

theorem elapsed_step (p : Publisher) (t : Turn) (id : RegistrationId) :
    (p.step t).elapsed.count (.maxAge id) = p.elapsed.count (.maxAge id) +
      if (t.operation p.resource).elapses = some (.maxAge id) then 1 else 0 :=
  count_append_toList _ _ _

theorem refreshes_step (p : Publisher) (t : Turn) (id : RegistrationId) :
    p.node.radio.refreshes id ≤ (p.step t).node.radio.refreshes id :=
  (Radio.lasting_more id).apply (Radio.tolerates_more id) (t.operation p.resource) p.node

theorem Refreshing.balanced_step (h : p.Refreshing) (punctual : p.Punctual t)
    (id : RegistrationId) :
    (p.step t).elapsed.count (.maxAge id) ≤ (p.step t).node.radio.refreshes id := by
  have before := h.balanced id
  have more := p.refreshes_step t id
  have left := ite_le_of_pos (punctual.once id)
  rw [p.elapsed_step t id]
  unfold outstanding at left
  omega

theorem Punctual.unvisited (h : p.Punctual t) (away : p.visit? t = none) {id : RegistrationId}
    (current : p.resource.endpoint.registration = some id) :
    (t.operation p.resource).elapses ≠ some (.maxAge id) := by
  intro elapses
  by_cases apart : ∃ op, t = .apart op
  · obtain ⟨op, rfl⟩ := apart
    cases op with
    | fire event services =>
      cases elapses
      exact h.lent id services rfl current
    | _ => cases elapses
  · have spent := spends_of_unvisited (fun op same => apart ⟨op, same⟩) away
    rw [spends_of_some current, if_pos elapses] at spent
    cases spent

/-- What a visit accounts for carries over to the turn. -/
theorem Refreshing.of_accounts (h : p.Refreshing) (punctual : p.Punctual t) {v : Visit}
    (visited : p.visit? t = some v)
    (accounts : p.resource.Accounts v.radio (v.done p.resource).1 (v.done p.resource).2
      (p.spends t) (v.asked p.resource)) : (p.step t).Refreshing := by
  have lent : ∀ op, t ≠ .apart op := by
    rintro op rfl
    cases visited
  have resource : (p.step t).resource = (v.done p.resource).1 := by
    rw [p.step_resource, visited, Option.elim_some]
  refine ⟨h.balanced_step punctual, ?_, ?_, ?_⟩
  · intro id current
    rw [resource, accounts.registration] at current
    have hosts := p.hosts_returned (Radio.lasting_more id) t lent
      (fun x _ => Radio.permits_more id x.asks) fun event _ => Radio.tolerates_more id event
    have before := hosts.before v visited
    have after := hosts.after v visited
    have counted := accounts.pending id current
    have pending := h.pending id current
    have balanced := h.balanced id
    have elapsed := p.elapsed_step t id
    rw [← spends_of_some current] at elapsed
    rw [resource]
    unfold outstanding at pending ⊢
    have left := ite_le_of_pos (punctual.once id)
    rw [← spends_of_some current] at left
    unfold outstanding at left
    omega
  · intro none
    rw [resource] at none ⊢
    rw [accounts.registration] at none
    have pending := accounts.idle none
    rw [h.idle none] at pending
    exact Nat.le_zero.mp pending
  · rw [resource]
    exact accounts.observed h.observed

theorem shutdown_resource (p : Publisher) :
    (p.step (.call .shutdown)).resource.endpoint.registration = none ∧
      (p.step (.call .shutdown)).resource.pendingRefreshes = 0 ∧
      (p.step (.call .shutdown)).resource.observers = [] := by
  rw [p.step_resource]
  exact ⟨p.node.radio.shutdown_registration p.resource.endpoint, rfl, rfl⟩

theorem register_resource (p : Publisher) : (p.step (.call .register)).resource =
    { p.resource with endpoint := (p.resource.endpoint.attach p.node.radio).1 } := by
  rw [p.step_resource]
  rfl

theorem Refreshing.shutdown (h : p.Refreshing) (punctual : p.Punctual (.call .shutdown)) :
    (p.step (.call .shutdown)).Refreshing := by
  obtain ⟨unregistered, pending, observers⟩ := p.shutdown_resource
  refine ⟨h.balanced_step punctual, fun id current => ?_, fun _ => pending,
    fun some => absurd observers some⟩
  rw [unregistered] at current
  cases current

theorem Refreshing.of_same (h : p.Refreshing) (punctual : p.Punctual t)
    (same : (p.step t).resource = p.resource)
    (silent : ∀ id, p.resource.endpoint.registration = some id →
      (t.operation p.resource).elapses ≠ some (.maxAge id)) : (p.step t).Refreshing := by
  refine ⟨h.balanced_step punctual, fun id current => ?_, ?_, ?_⟩
  · rw [same] at current ⊢
    have pending := h.pending id current
    have more := p.refreshes_step t id
    have elapsed := p.elapsed_step t id
    rw [if_neg (silent id current)] at elapsed
    unfold outstanding at pending ⊢
    omega
  · rw [same]
    exact h.idle
  · rw [same]
    exact h.observed

theorem Refreshing.register (h : p.Refreshing) (punctual : p.Punctual (.call .register)) :
    (p.step (.call .register)).Refreshing := by
  have resource := p.register_resource
  rcases p.node.radio.attach_cases p.resource.endpoint with same | ⟨stale, -, -⟩
  · rw [same] at resource
    exact h.of_same punctual resource fun id _ elapses => by cases elapses
  · -- the registration may be another now, under which nothing was asked for yet
    have settled : p.resource.pendingRefreshes = 0 := by
      cases current : p.resource.endpoint.registration with
      | none => exact h.idle current
      | some id =>
        refine (punctual.settled rfl id current).resolve_left fun valid => ?_
        rw [stale id current] at valid
        cases valid
    refine ⟨h.balanced_step punctual, fun id _ => ?_, fun _ => ?_, fun some => ?_⟩
    · rw [resource]
      exact settled ▸ Nat.zero_le _
    · rw [resource]
      exact settled
    · rw [resource] at some ⊢
      exact h.observed some

theorem Refreshing.step (h : p.Refreshing) (punctual : p.Punctual t) :
    (p.step t).Refreshing := by
  cases visited : p.visit? t with
  | none =>
    have same : (p.step t).resource = p.resource := by
      rw [p.step_resource, visited, Option.elim_none]
    exact h.of_same punctual same fun id current => punctual.unvisited visited current
  | some v =>
    by_cases shut : t = .call .shutdown
    · subst shut
      exact h.shutdown punctual
    by_cases anew : t = .call .register
    · subst anew
      exact h.register punctual
    exact h.of_accounts punctual visited (accounts_visit visited shut anew)

theorem Refreshing.after {turns : List Turn} (h : p.Refreshing) (timely : p.Timely turns) :
    (p.after turns).Refreshing := by
  induction turns generalizing p with
  | nil => exact h
  | cons t rest ih => exact ih (h.step timely.1) timely.2

/-- While a resource is registered and anybody observes it, a refresh that was asked for under its
registration has yet to elapse. Refreshes elapse at most once, with the resource there, and the
resource does not register anew while one is pending that it asked for under a registration that
it lost. -/
theorem refresh_outstanding {n : Node} {r : Radio} {path : String} {handler : Handler}
    {status : Reading} {renderer : Renderer} {s : Observable}
    (created : Observable.create n.radio path handler status renderer = (r, .ok s))
    (elapsed : List TimerEvent) (balanced : ∀ id, elapsed.count (.maxAge id) ≤ r.refreshes id)
    (turns : List Turn)
    (timely : Publisher.Timely ⟨{ n with radio := r }, s, elapsed⟩ turns) :
    let p := Publisher.after ⟨{ n with radio := r }, s, elapsed⟩ turns
    ∀ id, p.resource.endpoint.registration = some id → p.resource.observers ≠ [] →
      0 < p.outstanding id := by
  intro p id current some
  obtain ⟨empty, settled⟩ := created_observers created
  have start : Refreshing ⟨{ n with radio := r }, s, elapsed⟩ :=
    ⟨balanced, fun _ _ => by simp [settled], fun _ => settled, fun some => absurd empty some⟩
  have kept : p.Refreshing := start.after timely
  exact Nat.lt_of_lt_of_le (kept.observed some) (kept.pending id current)

set_option maxRecDepth 10000 in
/-- The first refresh elapses while its peer observes, and the next is asked for. -/
theorem refresh_outstanding_again :
    let created := Observable.create (Radio.start 0 {} {}) "a" (.fixed []) (.natural 5)
      Renderer.plain
    let turns := [.receive 1 [0x43, 1, 0, 9, 0x91, 97, 0x10, 0x11, 7] [] [],
      .fire (.maxAge ⟨0⟩) [] []]
    ∃ r s, created = (r, .ok s) ∧
      let start : Publisher := ⟨⟨r, [], []⟩, s, []⟩
      let p := start.after turns
      start.Timely turns ∧ p.elapsed = [.maxAge ⟨0⟩] ∧ p.resource.observers.map (·.peer) = [1] ∧
        p.resource.endpoint.registration = some ⟨0⟩ ∧ 0 < p.outstanding ⟨0⟩ := by
  refine ⟨_, _, rfl, ?_⟩
  intro start p
  have registration : p.resource.endpoint.registration = some ⟨0⟩ := by decide +kernel
  have peers : p.resource.observers.map (·.peer) = [1] := by decide +kernel
  have timely : start.Timely [.receive 1 [0x43, 1, 0, 9, 0x91, 97, 0x10, 0x11, 7] [] [],
      .fire (.maxAge ⟨0⟩) [] []] := by
    refine ⟨⟨?_, by simp, by simp⟩, ⟨?_, by simp, by simp⟩, trivial⟩
    · intro id elapses
      cases elapses
    · intro id elapses
      cases elapses
      decide +kernel
  refine ⟨timely, rfl, peers, registration, ?_⟩
  refine refresh_outstanding (n := ⟨Radio.start 0 {} {}, [], []⟩) rfl [] (fun _ => Nat.zero_le _) _
    timely ⟨0⟩ registration fun empty => ?_
  rw [empty] at peers
  cases peers

set_option maxRecDepth 10000 in
/-- The application gives up the registration of a resource that has an observer, and the resource
registers anew: the refresh that it counts as pending elapses under the registration lost. -/
theorem refresh_lost :
    let created := Observable.create (Radio.start 0 {} {}) "a" (.fixed []) (.natural 5)
      Renderer.plain
    let turns := [.receive 1 [0x43, 1, 0, 9, 0x91, 97, 0x10, 0x11, 7] [] [],
      .apart (.perform (.unregister ⟨0⟩) (.fresh (Packet.fresh 128) 1)), .call .register]
    ∃ r s, created = (r, .ok s) ∧
      let start : Publisher := ⟨⟨r, [], []⟩, s, []⟩
      let p := start.after turns
      p.resource.endpoint.registration = some ⟨1⟩ ∧ p.node.radio.isRegistered ⟨1⟩ = true ∧
        p.resource.observers.map (·.peer) = [1] ∧ p.resource.pendingRefreshes = 1 ∧
        p.outstanding ⟨1⟩ = 0 := by
  refine ⟨_, _, rfl, ?_⟩
  decide +kernel

end Publisher
end CoapNode
