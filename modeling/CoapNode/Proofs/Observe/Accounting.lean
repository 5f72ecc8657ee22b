import CoapNode.Proofs.Observe.Departure
/-! What a visit to an observable resource does to its count of pending refreshes. The resource
counts every refresh that it asks for, and nobody else asks under its registration. -/
namespace CoapNode

/-! ## Events asked for -/

namespace Radio

/-- How often a refresh was asked for under a registration. -/
def refreshes (r : Radio) (id : RegistrationId) : Nat :=
  (r.scheduled.map (·.event)).count (.maxAge id)

variable {r s : Radio} {id : RegistrationId}

theorem transmit_scheduled (r : Radio) (peer : NodeId) (packet : Message) (activity : Activity) :
    (r.transmit peer packet activity).1.scheduled = r.scheduled := by
  by_cases fits : packet.serializedLength ≤ datagramBuffer
  · obtain ⟨s, whole, _, _, rfl⟩ := r.transmit_of_fits peer activity fits
    rw [whole]
  · rw [transmit_of_long peer activity (Nat.lt_of_not_le fits)]

theorem refreshes_of_same (same : s.scheduled = r.scheduled) (id : RegistrationId) :
    s.refreshes id = r.refreshes id := by rw [refreshes, same, refreshes]

theorem refreshes_schedule (r : Radio) (after : Nat) (event : TimerEvent) (id : RegistrationId) :
    (r.schedule after event).refreshes id =
      r.refreshes id + if event = .maxAge id then 1 else 0 := by
  by_cases same : event = .maxAge id <;> simp [refreshes, schedule, same]

theorem lasting_refreshes (id : RegistrationId) :
    Lasting fun r s => s.refreshes id = r.refreshes id where
  refl r := rfl
  trans first second := second.trans first
  note r severity text := rfl
  transmit r peer packet activity :=
    refreshes_of_same (r.transmit_scheduled peer packet activity) id
  track r peer packet := by
    unfold track
    split
    · rfl
    · exact (refreshes_schedule _ _ _ id).trans (by rw [if_neg (by simp)]; rfl)
  drawId r := rfl
  drawToken r := rfl
  register r path := by
    unfold register
    split
    · rfl
    · split <;> rfl
  unregister r id := rfl
  storeResponse r peer id response := by
    unfold storeResponse
    split <;> rfl
  remember r peer id := rfl
  history r entries := rfl
  retransmits r after other := by rw [refreshes_schedule, if_neg (by simp), Nat.add_zero]
  outcomes r outcomes := rfl
  clock r ticks broken := rfl
  log r records := rfl

theorem tolerates_refreshes {event : TimerEvent} (other : event ≠ .maxAge id) :
    Tolerates (fun r s => s.refreshes id = r.refreshes id) event := by
  intro r after
  rw [refreshes_schedule, if_neg other, Nat.add_zero]

theorem permits_refreshes {registration : Option RegistrationId} (other : registration ≠ some id) :
    Permits (fun r s => s.refreshes id = r.refreshes id) registration := by
  refine fun x mine => tolerates_refreshes ?_
  rintro ⟨⟩
  exact other mine

theorem lasting_more (id : RegistrationId) :
    Lasting fun r s => r.refreshes id ≤ s.refreshes id := by
  have same := lasting_refreshes id
  exact {
    refl := fun r => Nat.le_refl _
    trans := Nat.le_trans
    note := fun r severity text => (same.note r severity text).ge
    transmit := fun r peer packet activity => (same.transmit r peer packet activity).ge
    drawId := fun r => (same.drawId r).ge
    track := fun r peer packet => (same.track r peer packet).ge
    drawToken := fun r => (same.drawToken r).ge
    register := fun r path => (same.register r path).ge
    unregister := fun r other => (same.unregister r other).ge
    storeResponse := fun r peer other response => (same.storeResponse r peer other response).ge
    remember := fun r peer other => (same.remember r peer other).ge
    history := fun r entries => (same.history r entries).ge
    retransmits := fun r after other => (same.retransmits r after other).ge
    outcomes := fun r outcomes => (same.outcomes r outcomes).ge
    clock := fun r ticks broken => (same.clock r ticks broken).ge
    log := fun r records => (same.log r records).ge }

theorem tolerates_more (id : RegistrationId) (event : TimerEvent) :
    Tolerates (fun r s => r.refreshes id ≤ s.refreshes id) event := by
  intro r after
  rw [refreshes_schedule]
  exact Nat.le_add_right _ _

theorem permits_more (id : RegistrationId) (registration : Option RegistrationId) :
    Permits (fun r s => r.refreshes id ≤ s.refreshes id) registration :=
  fun other _ => tolerates_more id (.maxAge other)

/-- Refreshes stay asked for, and those asked for meanwhile are among these events. -/
structure Adds (r s : Radio) (asked : List TimerEvent) : Prop where
  more : ∀ id, r.refreshes id ≤ s.refreshes id
  same : ∀ id, .maxAge id ∉ asked → s.refreshes id = r.refreshes id

theorem adds_of_same {asked : List TimerEvent} (same : ∀ id, s.refreshes id = r.refreshes id) :
    r.Adds s asked := ⟨fun id => (same id).ge, fun id _ => same id⟩

theorem Leads.refreshes (h : r.Leads s) (id : RegistrationId) : s.refreshes id = r.refreshes id :=
  h _ (lasting_refreshes id).toSteady

end Radio

theorem Node.Leads.adds {n n' : Node} (h : n.Leads n') :
    n.radio.Adds n'.radio (n'.askedSince n) where
  more id := (h _ (Radio.lasting_more id).toSteady).related
    fun event _ => Radio.tolerates_more id event
  same id unasked := (h _ (Radio.lasting_refreshes id).toSteady).related
    fun _ member => Radio.tolerates_refreshes fun mine => unasked (mine ▸ member)

namespace Node

variable {n n' : Node}

theorem Leads.refreshes_of_journal (h : n.Leads n') (same : n'.journal = n.journal)
    (id : RegistrationId) : n'.radio.refreshes id = n.radio.refreshes id :=
  h.adds.same id (by simp [askedSince, same])

end Node

theorem Action.perform_refreshes (a : Action) (n : Node) (m : Received) (id : RegistrationId) :
    (a.perform n m).1.radio.refreshes id =
      n.radio.refreshes id + a.asked?.toList.count (.maxAge id) := by
  cases a with
  | schedule after event =>
    simp only [perform, asked?, Option.toList_some, List.count_singleton, beq_iff_eq]
    exact Radio.refreshes_schedule n.radio after event id
  | _ => exact (Radio.lasting_refreshes id).toSteady.perform _ n m (by simp [asked?])

theorem Action.performAll_refreshes (actions : List Action) (n : Node) (m : Received)
    (id : RegistrationId) : (performAll actions n m).1.radio.refreshes id =
      n.radio.refreshes id + ((performAll actions n m).1.askedSince n).count (.maxAge id) := by
  induction actions generalizing n m with
  | nil => simp [performAll, Node.askedSince]
  | cons a rest ih =>
    let n₁ := (a.perform n m).1.record (.acted a (a.perform n m).2.2
      (a.perform n m).2.1.acknowledged (a.perform n m).2.1.answered)
    have later := ih n₁ (a.perform n m).2.1
    have first : n₁.askedSince n = a.asked?.toList := a.acted_asked n m _ _
    have asked := Node.askedSince_trans (a.acted_serves n m _ _).wrote
      (performAll_serves rest n₁ (a.perform n m).2.1).wrote
    rw [performAll_cons, later, asked, first, List.count_append, ← Nat.add_assoc,
      ← a.perform_refreshes n m id]
    rfl

theorem Endpoint.handle_refreshes (e : Endpoint) (n : Node) (m : Received) (id : RegistrationId) :
    (e.handle n m).1.radio.refreshes id =
      n.radio.refreshes id + ((e.handle n m).1.askedSince n).count (.maxAge id) := by
  let n₁ := n.record (.handled e.path m.peer m.packet.id)
  have ran := Action.performAll_refreshes (e.handler n₁ m) n₁ m id
  have asked := Node.askedSince_trans (n.record_serves m (e := .handled e.path m.peer m.packet.id)
    rfl rfl).wrote (Action.performAll_serves (e.handler n₁ m) n₁ m).wrote
  have first : n₁.askedSince n = [] := by
    simp [n₁, Node.askedSince, Node.record, JournalEntry.asked?]
  change (Action.performAll (e.handler n₁ m) n₁ m).1.radio.refreshes id = _ +
    ((Action.performAll (e.handler n₁ m) n₁ m).1.askedSince n).count _
  rw [ran, asked, first, List.nil_append]
  rfl

/-! ## Accounts of a visit -/

namespace Observable

variable {s s' : Observable} {r r' : Radio}

theorem scheduleRefresh_of_some {id : RegistrationId} (s : Observable) (r : Radio)
    (current : s.endpoint.registration = some id) :
    (s.scheduleRefresh r).1.pendingRefreshes = min (s.pendingRefreshes + 1) 65535 ∧
      (s.scheduleRefresh r).2.refreshes id = r.refreshes id + 1 := by
  simp [scheduleRefresh, current, Radio.refreshes_schedule]

theorem scheduleRefresh_of_none (s : Observable) (r : Radio)
    (unregistered : s.endpoint.registration = none) : s.scheduleRefresh r = (s, r) := by
  simp [scheduleRefresh, unregistered]

theorem scheduleRefresh_endpoint (s : Observable) (r : Radio) :
    (s.scheduleRefresh r).1.endpoint = s.endpoint := by
  unfold scheduleRefresh
  split <;> rfl

/-- A change that counts the refresh it asks for, if it asks for one, after those that elapse.
Handlers asked for these events on their own, which are not counted. -/
structure Accounts (s : Observable) (r : Radio) (s' : Observable) (r' : Radio) (spent : Nat)
    (asked : List TimerEvent) : Prop where
  registration : s'.endpoint.registration = s.endpoint.registration
  counted : ∀ id, s.endpoint.registration = some id → .maxAge id ∉ asked →
    (r'.refreshes id = r.refreshes id ∧ s'.pendingRefreshes = s.pendingRefreshes - spent) ∨
      (r'.refreshes id = r.refreshes id + 1 ∧
        s'.pendingRefreshes = min (s.pendingRefreshes - spent + 1) 65535)
  /-- The count is never ahead of what was asked for. -/
  pending : ∀ id, s.endpoint.registration = some id →
    s'.pendingRefreshes + r.refreshes id ≤ s.pendingRefreshes - spent + r'.refreshes id
  idle : s.endpoint.registration = none → s'.pendingRefreshes ≤ s.pendingRefreshes
  observed : (s.observers ≠ [] → 0 < s.pendingRefreshes) → s'.observers ≠ [] →
    0 < s'.pendingRefreshes

/-- What happens before and after does not matter if nothing else is asked for meanwhile under the
registration. -/
theorem Accounts.between {r₀ r₁ : Radio} {spent : Nat} {asked : List TimerEvent}
    (h : s.Accounts r s' r' spent asked)
    (unasked : ∀ id, s.endpoint.registration = some id → .maxAge id ∉ asked)
    (before : ∀ id, s.endpoint.registration = some id → r.refreshes id = r₀.refreshes id)
    (after : ∀ id, s.endpoint.registration = some id → r₁.refreshes id = r'.refreshes id) :
    s.Accounts r₀ s' r₁ spent [] where
  registration := h.registration
  counted := fun id current _ => by
    rw [after id current, ← before id current]
    exact h.counted id current (unasked id current)
  pending := fun id current => by
    rw [after id current, ← before id current]
    exact h.pending id current
  idle := h.idle
  observed := h.observed

theorem accounts_of_adds {asked : List TimerEvent}
    (registration : s'.endpoint.registration = s.endpoint.registration)
    (pending : s'.pendingRefreshes = s.pendingRefreshes)
    (fewer : s'.observers ≠ [] → s.observers ≠ []) (adds : r.Adds r' asked) :
    s.Accounts r s' r' 0 asked where
  registration := registration
  counted := fun id _ unasked => .inl ⟨adds.same id unasked, pending⟩
  pending := fun id _ => Nat.add_le_add (Nat.le_of_eq pending) (adds.more id)
  idle := fun _ => Nat.le_of_eq pending
  observed := fun before some => pending ▸ before (fewer some)

theorem accounts_of_same (registration : s'.endpoint.registration = s.endpoint.registration)
    (pending : s'.pendingRefreshes = s.pendingRefreshes)
    (fewer : s'.observers ≠ [] → s.observers ≠ [])
    (same : ∀ id, r'.refreshes id = r.refreshes id) : s.Accounts r s' r' 0 [] :=
  accounts_of_adds registration pending fewer (Radio.adds_of_same same)

theorem accounts_of_schedule {t : Observable} {r₁ : Radio} {spent : Nat}
    (registration : t.endpoint.registration = s.endpoint.registration)
    (pending : t.pendingRefreshes = s.pendingRefreshes - spent)
    (same : ∀ id, r₁.refreshes id = r.refreshes id)
    (unregistered : s.endpoint.registration = none →
      spent = 0 ∧ (t.observers ≠ [] → s.observers ≠ [])) :
    s.Accounts r (t.scheduleRefresh r₁).1 (t.scheduleRefresh r₁).2 spent [] where
  registration := by rw [t.scheduleRefresh_endpoint, registration]
  counted := fun id current _ => by
    obtain ⟨counted, asked⟩ := t.scheduleRefresh_of_some r₁ (registration.trans current)
    exact .inr ⟨by rw [asked, same], by rw [counted, pending]⟩
  pending := fun id current => by
    obtain ⟨counted, asked⟩ := t.scheduleRefresh_of_some r₁ (registration.trans current)
    rw [counted, asked, pending, same]
    omega
  idle := fun none => by
    rw [t.scheduleRefresh_of_none r₁ (registration.trans none), pending]
    exact Nat.sub_le _ _
  observed := fun before some => by
    rw [(t.scheduleRefresh_frame r₁).1] at some
    cases current : s.endpoint.registration with
    | none =>
      obtain ⟨unspent, fewer⟩ := unregistered current
      rw [t.scheduleRefresh_of_none r₁ (registration.trans current), pending, unspent]
      exact before (fewer some)
    | some id =>
      have counted := (t.scheduleRefresh_of_some r₁ (registration.trans current)).1
      omega

theorem ne_nil_of_peers (peers : s'.observers.map (·.peer) = s.observers.map (·.peer))
    (some : s'.observers ≠ []) : s.observers ≠ [] := by
  intro empty
  rw [empty] at peers
  exact some (List.map_eq_nil_iff.mp peers)

theorem accounts_enter {n : Node} {m : Received} {now : Nat} {t : Transmission} (o : Observer)
    (current : s.endpoint.registration ≠ none) (answers : s.Answers n m now r t) :
    s.Accounts n.radio (s.enter r o).1 (s.enter r o).2 0 [] := by
  obtain ⟨endpoint, pending⟩ := s.putObserver_kept r o
  have registration := congrArg Endpoint.registration endpoint
  have same : ∀ id, (s.putObserver r o).2.refreshes id = n.radio.refreshes id := fun id =>
    ((Radio.lasting_refreshes id).putObserver s r o).trans (answers.leads.refreshes id)
  unfold enter
  simp only
  split
  · exact accounts_of_schedule registration pending same fun none => absurd none current
  · next counted =>
    exact ⟨registration, fun id _ _ => .inl ⟨same id, pending⟩,
      fun id _ => Nat.add_le_add (Nat.le_of_eq pending) (same id).ge,
      fun none => absurd none current, fun _ _ => Nat.pos_of_ne_zero counted⟩

theorem accounts_offer (s : Observable) (n : Node) (m : Received)
    (current : s.endpoint.registration ≠ none) :
    s.Accounts n.radio (s.offer n m).1 (s.offer n m).2.1.radio 0
      ((s.offer n m).2.1.askedSince n) := by
  have serves := s.offer_cases n m
  generalize (s.offer n m).1 = s' at serves ⊢
  generalize (s.offer n m).2.1 = n' at serves ⊢
  cases serves with
  | apart _ leads | failed _ _ leads => exact accounts_of_adds rfl rfl id leads.adds
  | stopped _ _ leads =>
    refine accounts_of_adds rfl rfl (fun some empty => some ?_) leads.adds
    simp [without, empty]
  | registered registers answers =>
    have unasked : ∀ r : Radio, Node.askedSince { n with radio := r } n = [] := by
      simp [Node.askedSince]
    rw [unasked]
    exact accounts_enter _ current answers

theorem accounts_forget (s : Observable) (r : Radio) (peer : NodeId) (token : ShortBytes) :
    s.Accounts r (s.forget r peer token).1 (s.forget r peer token).2 0 [] := by
  refine accounts_of_same rfl rfl (fun some empty => some ?_)
    fun id => (Radio.lasting_refreshes id).forget s r peer token
  simp [forget, empty]

theorem accounts_forgetNotified (s : Observable) (r : Radio) (peer : NodeId) (id : MessageId) :
    s.Accounts r (s.forgetNotified r peer id).1 (s.forgetNotified r peer id).2.1 0 [] := by
  rcases s.forgetNotified_cases r peer id with ⟨-, same⟩ | ⟨o, -, -, -, same⟩
  · rw [same]
    exact accounts_of_same rfl rfl (fun some => some) fun _ => rfl
  · rw [same]
    exact s.accounts_forget r peer o.token

theorem accounts_refresh (s : Observable) (r : Radio)
    (current : s.endpoint.registration ≠ none) :
    s.Accounts r (s.timerFired r).1 (s.timerFired r).2 1 [] := by
  rcases s.timerFired_cases r with ⟨idle, same⟩ | ⟨-, -, log, same⟩
  · rw [same]
    exact ⟨rfl, fun id _ _ => .inl ⟨rfl, rfl⟩, fun id _ => Nat.le_refl _,
      fun none => absurd none current, fun _ some => idle.resolve_right some⟩
  · rw [same]
    obtain ⟨endpoint, pending⟩ := notifyObservers_kept
      { s with pendingRefreshes := s.pendingRefreshes - 1, counter := s.counter + 1 } r true
    exact accounts_of_schedule (congrArg Endpoint.registration endpoint) pending
      (fun id => (Radio.lasting_refreshes id).notifyObservers { s with
        pendingRefreshes := s.pendingRefreshes - 1, counter := s.counter + 1 } r true)
      fun none => absurd none current

theorem accounts_setStatus (s : Observable) (r : Radio) (v : Reading) :
    s.Accounts r (s.setStatus r v).1 (s.setStatus r v).2.1 0 [] := by
  obtain ⟨endpoint, pending⟩ := notifyObservers_kept
    { s with status := v, counter := s.counter + 1 } r false
  have peers := peers_notifyObservers
    { s with status := v, counter := s.counter + 1 } r false
  exact accounts_of_schedule (congrArg Endpoint.registration endpoint) pending
    (fun id => (Radio.lasting_refreshes id).notifyObservers
      { s with status := v, counter := s.counter + 1 } r false)
    fun _ => ⟨rfl, ne_nil_of_peers peers⟩

theorem accounts_called (s : Observable) (r : Radio) {c : ServiceCall} (stays : c ≠ .shutdown)
    (kept : c ≠ .register) : s.Accounts r (s.called r c).1 (s.called r c).2 0 [] := by
  cases c with
  | shutdown => exact absurd rfl stays
  | register => exact absurd rfl kept
  | setStatus v => exact s.accounts_setStatus r v
  | _ => exact accounts_of_same rfl rfl id fun _ => rfl

end Observable

/-! ## Accounts of a turn -/

namespace Publisher

variable {p : Publisher} {t : Turn}

def spends (p : Publisher) (t : Turn) : Nat :=
  (t.operation p.resource).elapses.elim 0 fun event =>
    if p.resource.endpoint.registration.map .maxAge = some event then 1 else 0

theorem spends_of_some {id : RegistrationId}
    (current : p.resource.endpoint.registration = some id) :
    p.spends t = if (t.operation p.resource).elapses = some (.maxAge id) then 1 else 0 := by
  unfold spends
  cases (t.operation p.resource).elapses with
  | none => rfl
  | some event => simp [current, eq_comm]

theorem spends_of_retransmit (id : MessageId) (before after : List Service) :
    p.spends (.fire (.retransmit id) before after) = 0 := by
  unfold spends
  cases p.resource.endpoint.registration <;> rfl

theorem spends_of_unvisited (lent : ∀ op, t ≠ .apart op) (away : p.visit? t = none) :
    p.spends t = 0 := by
  cases t with
  | receive _ _ _ _ | call _ => rfl
  | apart op => exact absurd rfl (lent op)
  | fire event before after =>
    cases event with
    | retransmit id => exact spends_of_retransmit id before after
    | maxAge id =>
      refine if_neg fun mine => ?_
      obtain ⟨_, current, same⟩ := Option.map_eq_some_iff.mp mine
      cases same
      simp [visit?, current] at away

theorem accounts_visit {v : Visit} (visited : p.visit? t = some v) (stays : t ≠ .call .shutdown)
    (kept : t ≠ .call .register) :
    p.resource.Accounts v.radio (v.done p.resource).1 (v.done p.resource).2 (p.spends t)
      (v.asked p.resource) := by
  cases visit_occasion visited with
  | offer _ _ current | altered _ current =>
    exact p.resource.accounts_offer _ _ (Option.isSome_iff_ne_none.mp current)
  | refresh current =>
    rw [spends_of_some current, Turn.operation, Operation.elapses, if_pos rfl]
    exact p.resource.accounts_refresh _ (by simp [current])
  | reset => exact p.resource.accounts_forget _ _ _
  | expiry =>
    rw [spends_of_retransmit]
    exact p.resource.accounts_forget _ _ _
  | @disown peer bytes before after packet r =>
    exact p.resource.accounts_forgetNotified r peer packet.id
  | call c =>
    exact p.resource.accounts_called _ (fun same => stays (congrArg _ same))
      fun same => kept (congrArg _ same)

theorem step_registration (stays : t ≠ .call .shutdown) (kept : t ≠ .call .register) :
    (p.step t).resource.endpoint.registration = p.resource.endpoint.registration := by
  rw [p.step_resource]
  cases visited : p.visit? t with
  | none => rfl
  | some v => exact (accounts_visit visited stays kept).registration

theorem asked_of_visited {v : Visit} (visited : p.visit? t = some v) :
    v.asked p.resource ⊆ (t.operation p.resource).asked p.node := by
  have occasion := visit_occasion visited
  cases v with
  | offer n m =>
    cases t with
    | receive peer bytes before after =>
      exact (p.hosts_returned lasting_trivial (.receive peer bytes before after) (by simp)
        (fun _ _ _ _ _ _ => trivial) fun _ _ _ _ => trivial).asked _ visited
    | fire event before after => cases occasion
    | call c => cases occasion
    | apart op => cases occasion
  | _ => exact List.nil_subset _

/-- A turn changes the count as its visit does, if neither the other services lent nor handlers ask
for refreshes under the registration. -/
theorem accounts_turn (lent : ∀ op, t ≠ .apart op) (stays : t ≠ .call .shutdown)
    (kept : t ≠ .call .register)
    (others : ∀ id, p.resource.endpoint.registration = some id → ∀ x ∈ t.others,
      x.asks ≠ some id)
    (unasked : ∀ id, p.resource.endpoint.registration = some id →
      .maxAge id ∉ (t.operation p.resource).asked p.node) :
    p.resource.Accounts p.node.radio (p.step t).resource (p.step t).node.radio (p.spends t)
      [] := by
  have hosts := fun id current => p.hosts_returned (Radio.lasting_refreshes id) t lent
    (fun x member => Radio.permits_refreshes (others id current x member))
    fun event member => Radio.tolerates_refreshes fun mine => unasked id current (mine ▸ member)
  rw [p.step_resource]
  cases visited : p.visit? t with
  | none =>
    rw [spends_of_unvisited lent visited]
    exact (Observable.accounts_of_same rfl rfl id fun _ => rfl).between (fun _ _ => by simp)
      (fun _ _ => rfl) fun id current => (hosts id current).away visited
  | some v =>
    exact (accounts_visit visited stays kept).between
      (fun id current own => unasked id current (asked_of_visited visited own))
      (fun id current => (hosts id current).before v visited)
      fun id current => (hosts id current).after v visited

end Publisher
end CoapNode
