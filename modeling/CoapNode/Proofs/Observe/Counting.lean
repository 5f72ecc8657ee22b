import CoapNode.Proofs.Observe.Lending
import CoapNode.Proofs.Observe.Refreshing
/-! How many refreshes a resource counts as pending, in a run of an application. The count is the
number of events under the resource's registration that were asked for and have not elapsed: ids are
not reused, so nobody else asks under it. -/
namespace CoapNode

def TimerEvent.refreshes? : TimerEvent → Option RegistrationId
  | maxAge id => some id
  | retransmit _ => none

/-! ## Runs -/

/-- A session, the events that elapsed so far, and the registrations under which the application
asked for refreshes itself, in handlers or outside. -/
structure Course where
  session : Session
  elapsed : List TimerEvent
  imposed : List RegistrationId

namespace Course

def start (self : NodeId) (config : Config) (scale : TickScale) : Course :=
  ⟨Session.start self config scale, [], []⟩

def step (c : Course) (t : Step) : Course where
  session := (c.session.perform t).1
  elapsed := c.elapsed ++ (c.session.elapses t).toList
  imposed := c.imposed ++ (c.session.asked t).filterMap (·.refreshes?)

def after (c : Course) (steps : List Step) : Course := steps.foldl step c

def radio (c : Course) : Radio := c.session.node.radio

/-- Refreshes that were asked for under a registration and have not elapsed. -/
def outstanding (c : Course) (id : RegistrationId) : Nat :=
  c.radio.refreshes id - c.elapsed.count (.maxAge id)

/-- What is taken for granted of a step, for the service at a position. -/
structure Regular (c : Course) (k : Nat) (t : Step) : Prop where
  /-- No service is lent twice for one call. -/
  lent : (c.session.lends t).Nodup
  /-- An event elapses at most once. -/
  once : ∀ id, c.session.elapses t = some (.maxAge id) → 0 < c.outstanding id
  /-- The service is lent when an event of its own elapses. -/
  present : ∀ id ∈ c.session.asksAt k, c.session.elapses t = some (.maxAge id) →
    k ∈ c.session.lends t
  /-- Nobody else gave up its registration. -/
  current : ∀ id ∈ c.session.asksAt k, c.radio.isRegistered id = true
  /-- The application has not asked for refreshes under its registration. -/
  own : ∀ id ∈ (c.step t).session.asksAt k, id ∉ (c.step t).imposed
  few : ∀ id ∈ (c.step t).session.asksAt k, (c.step t).outstanding id < 65535
  /-- The count of registrations does not wrap around, as it does at the 65536th. -/
  unwrapped : c.radio.nextRegistration.val ≤ (c.step t).radio.nextRegistration.val

def Regularly (c : Course) (k : Nat) : List Step → Prop
  | [] => True
  | t :: rest => c.Regular k t ∧ (c.step t).Regularly k rest

instance decidableRegular (c : Course) (k : Nat) (t : Step) : Decidable (c.Regular k t) :=
  decidable_of_iff ((c.session.lends t).Nodup ∧
      (∀ event ∈ c.session.elapses t, ∀ id ∈ event.refreshes?, 0 < c.outstanding id) ∧
      (∀ id ∈ c.session.asksAt k, c.session.elapses t = some (.maxAge id) →
        k ∈ c.session.lends t) ∧
      (∀ id ∈ c.session.asksAt k, c.radio.isRegistered id = true) ∧
      (∀ id ∈ (c.step t).session.asksAt k, id ∉ (c.step t).imposed) ∧
      (∀ id ∈ (c.step t).session.asksAt k, (c.step t).outstanding id < 65535) ∧
      c.radio.nextRegistration.val ≤ (c.step t).radio.nextRegistration.val) <| by
    constructor
    · rintro ⟨lent, once, present, current, own, few, unwrapped⟩
      exact ⟨lent, fun id elapses => once _ elapses id rfl, present, current, own, few, unwrapped⟩
    · rintro ⟨lent, once, present, current, own, few, unwrapped⟩
      refine ⟨lent, fun event elapses id refreshes => once id ?_, present, current, own, few,
        unwrapped⟩
      cases event with
      | retransmit _ => cases refreshes
      | maxAge _ => cases refreshes; exact elapses

instance decidableRegularly (c : Course) (k : Nat) :
    (steps : List Step) → Decidable (c.Regularly k steps)
  | [] => isTrue trivial
  | t :: rest => @instDecidableAnd _ _ _ (decidableRegularly (c.step t) k rest)

/-- Every registration asked under was granted, and to one service only; nobody asks for refreshes
before it is granted. The service counts its own refreshes. -/
structure Counted (c : Course) (k : Nat) : Prop where
  balanced : ∀ id, c.elapsed.count (.maxAge id) ≤ c.radio.refreshes id
  granted : ∀ i id, c.session.asksAt i = some id → id.val < c.radio.nextRegistration.val
  apart : ∀ i j id, c.session.asksAt i = some id → c.session.asksAt j = some id → i = j
  unasked : ∀ id, id ∉ c.imposed → c.radio.nextRegistration.val ≤ id.val →
    c.radio.refreshes id = 0
  counted : ∀ s, c.session.services[k]? = some (.observable s) →
    s.pendingRefreshes = s.endpoint.registration.elim 0 c.outstanding

variable {c : Course} {k : Nat} {t : Step} {id : RegistrationId}

theorem elapsed_step (c : Course) (t : Step) (id : RegistrationId) :
    (c.step t).elapsed.count (.maxAge id) = c.elapsed.count (.maxAge id) +
      if c.session.elapses t = some (.maxAge id) then 1 else 0 :=
  count_append_toList _ _ _

theorem refreshes_step (c : Course) (t : Step) (id : RegistrationId) :
    c.radio.refreshes id ≤ (c.step t).radio.refreshes id :=
  (Radio.lasting_more id).session c.session t (fun _ _ => Radio.permits_more id _)
    fun event _ => Radio.tolerates_more id event

theorem refreshes_kept (others : ∀ i ∈ c.session.lends t, c.session.asksAt i ≠ some id)
    (unasked : .maxAge id ∉ c.session.asked t) :
    (c.step t).radio.refreshes id = c.radio.refreshes id :=
  (Radio.lasting_refreshes id).session c.session t
    (fun i lent => Radio.permits_refreshes (others i lent))
    fun _ asked => Radio.tolerates_refreshes fun mine => unasked (mine ▸ asked)

theorem not_imposed (own : id ∉ (c.step t).imposed) :
    id ∉ c.imposed ∧ .maxAge id ∉ c.session.asked t := by
  rw [step, List.mem_append, not_or] at own
  exact ⟨own.1, fun asked => own.2 (List.mem_filterMap.mpr ⟨_, asked, rfl⟩)⟩

/-! ## Registrations -/

theorem asksAt_step {i : Nat} (asks : (c.step t).session.asksAt i = some id) :
    c.session.asksAt i = some id ∨ id = c.radio.nextRegistration ∧
      (c.step t).radio.nextRegistration = c.radio.nextRegistration.next ∧
      ∀ j, j ≠ i → (c.step t).session.asksAt j = c.session.asksAt j := by
  obtain ⟨j, elsewhere, here⟩ := (c.session.perform_settles t).asks
  by_cases apart : i = j
  · subst apart
    rcases here with same | none | ⟨fresh, next⟩
    · exact .inl (same.symm.trans asks)
    · rw [step, none] at asks
      cases asks
    · rw [step, fresh] at asks
      cases asks
      exact .inr ⟨rfl, next, elsewhere⟩
  · exact .inl ((elsewhere i apart).symm.trans asks)

theorem Counted.granted_step (h : c.Counted k)
    (unwrapped : c.radio.nextRegistration.val ≤ (c.step t).radio.nextRegistration.val) {i : Nat}
    (asks : (c.step t).session.asksAt i = some id) :
    id.val < (c.step t).radio.nextRegistration.val := by
  rcases asksAt_step asks with old | ⟨rfl, next, -⟩
  · exact UInt16.lt_of_lt_of_le (h.granted i id old) unwrapped
  · rw [next] at unwrapped ⊢
    exact RegistrationId.lt_next unwrapped

theorem Counted.apart_step (h : c.Counted k) {i j : Nat}
    (one : (c.step t).session.asksAt i = some id) (other : (c.step t).session.asksAt j = some id) :
    i = j := by
  rcases asksAt_step one with old | ⟨rfl, -, elsewhere⟩
  · rcases asksAt_step other with old' | ⟨rfl, -, -⟩
    · exact h.apart i j id old old'
    · exact absurd (h.granted i _ old) (UInt16.lt_irrefl _)
  · -- the next registration was asked under nowhere before
    by_contra differ
    rw [elsewhere j (Ne.symm differ)] at other
    exact absurd (h.granted j _ other) (UInt16.lt_irrefl _)

/-- The registration was granted, and no service but the one at the position asks under it. -/
structure Reserved (c : Course) (k : Nat) (id : RegistrationId) : Prop where
  granted : id.val < c.radio.nextRegistration.val
  mine : ∀ i, c.session.asksAt i = some id → i = k

theorem Reserved.step (h : c.Reserved k id)
    (unwrapped : c.radio.nextRegistration.val ≤ (c.step t).radio.nextRegistration.val) :
    (c.step t).Reserved k id where
  granted := UInt16.lt_of_lt_of_le h.granted unwrapped
  mine i asks := by
    rcases asksAt_step asks with old | ⟨rfl, -, -⟩
    · exact h.mine i old
    · exact absurd h.granted (UInt16.lt_irrefl _)

theorem Reserved.after {steps : List Step} (h : c.Reserved k id) (regularly : c.Regularly k steps) :
    (c.after steps).Reserved k id := by
  induction steps generalizing c with
  | nil => exact h
  | cons t rest ih => exact ih (h.step regularly.1.unwrapped) regularly.2

theorem Counted.balanced_step (h : c.Counted k) (regular : c.Regular k t)
    (id : RegistrationId) :
    (c.step t).elapsed.count (.maxAge id) ≤ (c.step t).radio.refreshes id := by
  have before := h.balanced id
  have more := c.refreshes_step t id
  have left := ite_le_of_pos (regular.once id)
  rw [c.elapsed_step t id]
  unfold outstanding at left
  omega

theorem Counted.unasked_step (h : c.Counted k)
    (unwrapped : c.radio.nextRegistration.val ≤ (c.step t).radio.nextRegistration.val)
    (own : id ∉ (c.step t).imposed)
    (ahead : (c.step t).radio.nextRegistration.val ≤ id.val) :
    (c.step t).radio.refreshes id = 0 := by
  obtain ⟨before, unasked⟩ := not_imposed own
  have beyond := UInt16.le_trans unwrapped ahead
  rw [refreshes_kept (fun i _ asks => ?_) unasked]
  · exact h.unasked id before beyond
  · exact UInt16.lt_irrefl _ (UInt16.lt_of_lt_of_le (h.granted i id asks) beyond)

/-! ## The count -/

theorem asksAt_of_observable {s : Observable}
    (here : c.session.services[k]? = some (.observable s)) :
    c.session.asksAt k = s.endpoint.registration := Session.asksAt_of_some here

theorem Counted.others_apart (h : c.Counted k) (asks : c.session.asksAt k = some id) {x : Service}
    (elsewhere : ∃ i, i ≠ k ∧ c.session.services[i]? = some x) : x.asks ≠ some id := by
  obtain ⟨i, apart, there⟩ := elsewhere
  exact fun same => apart (h.apart i k id ((Session.asksAt_of_some there).trans same) asks)

theorem Counted.outstanding_of_new (h : c.Counted k) (regular : c.Regular k t)
    (asks : (c.step t).session.asksAt k = some id) (new : c.session.asksAt k ≠ some id) :
    (c.step t).outstanding id = 0 := by
  obtain ⟨rfl, -, -⟩ := (asksAt_step asks).resolve_left new
  obtain ⟨before, unasked⟩ := not_imposed (regular.own _ asks)
  have kept := refreshes_kept (fun i _ asks => UInt16.lt_irrefl _ (h.granted i _ asks)) unasked
  unfold outstanding
  rw [kept, h.unasked _ before (UInt16.le_refl _), Nat.zero_sub]

theorem Counted.counted_of_accounts (h : c.Counted k) (regular : c.Regular k t) {s s' : Observable}
    (here : c.session.services[k]? = some (.observable s))
    (back : (c.step t).session.services[k]? = some (.observable s')) {spent : Nat}
    (accounts : s.Accounts c.radio s' (c.step t).radio spent [])
    (elapses : ∀ id, s.endpoint.registration = some id →
      spent = if c.session.elapses t = some (.maxAge id) then 1 else 0) :
    s'.pendingRefreshes = s'.endpoint.registration.elim 0 (c.step t).outstanding := by
  have before := h.counted s here
  rw [accounts.registration]
  cases current : s.endpoint.registration with
  | none =>
    have idle := accounts.idle current
    rw [before, current] at idle
    exact Nat.le_zero.mp idle
  | some id =>
    rw [current, Option.elim_some] at before
    have asks := (asksAt_of_observable back).trans (accounts.registration.trans current)
    have few := regular.few id asks
    have balanced := h.balanced id
    have elapsed := c.elapsed_step t id
    have left := ite_le_of_pos (regular.once id)
    rw [← elapses id current] at elapsed left
    rw [Option.elim_some]
    unfold outstanding at before few left ⊢
    rcases accounts.counted id current List.not_mem_nil with
      ⟨asked, counted⟩ | ⟨asked, counted⟩ <;> omega

theorem Counted.counted_of_away (h : c.Counted k) (regular : c.Regular k t) {s : Observable}
    (here : c.session.services[k]? = some (.observable s)) (away : k ∉ c.session.lends t) :
    (c.step t).session.services[k]? = some (.observable s) ∧
      s.pendingRefreshes = s.endpoint.registration.elim 0 (c.step t).outstanding := by
  obtain ⟨inside, -⟩ := List.getElem?_eq_some_iff.mp here
  have kept : (c.step t).session.services[k]? = some (.observable s) :=
    ((c.session.perform_settles t).kept away inside).trans here
  have same : s.Accounts c.radio s c.radio 0 [] :=
    Observable.accounts_of_same rfl rfl id fun _ => rfl
  refine ⟨kept, h.counted_of_accounts regular here kept
    (same.between (fun _ _ => List.not_mem_nil) (fun _ _ => rfl) fun id current => ?_)
    fun id current => ?_⟩
  · have asks := (asksAt_of_observable here).trans current
    have asks' := (asksAt_of_observable kept).trans current
    refine refreshes_kept (fun i lent other => ?_) (not_imposed (regular.own id asks')).2
    exact away (h.apart i k id other asks ▸ lent)
  · have asks := (asksAt_of_observable here).trans current
    exact (if_neg fun elapses => away (regular.present id asks elapses)).symm

/-- Registering anew, the resource counts nothing until it asks for a refresh. -/
theorem Counted.counted_of_register (h : c.Counted k) (regular : c.Regular k t) {s : Observable}
    (here : c.session.services[k]? = some (.observable s))
    (takes : c.session.TakesTurn t k s (.call .register)) :
    let s' := (Publisher.step ⟨c.session.node, s, []⟩ (.call .register)).resource
    s'.pendingRefreshes = s'.endpoint.registration.elim 0 (c.step t).outstanding := by
  have back : (c.step t).session.services[k]? = _ := takes.resource
  have radio : (c.step t).radio = (s.endpoint.attach c.radio).2.1 := takes.radio
  have elapses : none = c.session.elapses t := takes.elapses
  rw [Publisher.register_resource] at back ⊢
  intro s'
  rcases c.radio.attach_cases s.endpoint with same | ⟨stale, fresh, -⟩
  · have unchanged : s' = s := congrArg (fun e => { s with endpoint := e }) same
    have accounts : s.Accounts c.radio s' c.radio 0 [] :=
      Observable.accounts_of_same (by rw [unchanged]) rfl id fun _ => rfl
    refine h.counted_of_accounts regular here back
      (accounts.between (fun _ _ => List.not_mem_nil) (fun _ _ => rfl) fun id _ => ?_)
      fun id _ => by simp [← elapses]
    rw [radio]
    exact (Radio.lasting_refreshes id).attach s.endpoint c.radio
  · -- its registration was given up, so that nothing was counted
    have registration : s'.endpoint.registration = some c.radio.nextRegistration :=
      congrArg Endpoint.registration fresh
    have nothing : s.endpoint.registration = none := by
      refine Option.eq_none_iff_forall_ne_some.mpr fun id mine => ?_
      have current := regular.current id ((asksAt_of_observable here).trans mine)
      rw [stale id mine] at current
      cases current
    have before := h.counted s here
    rw [nothing] at before
    have asks := (asksAt_of_observable back).trans registration
    have none := h.outstanding_of_new regular asks
      (by rw [asksAt_of_observable here, nothing]; simp)
    rw [registration, Option.elim_some, none]
    exact before

theorem Counted.counted_of_turn (h : c.Counted k) (regular : c.Regular k t) {s : Observable}
    (here : c.session.services[k]? = some (.observable s)) {turn : Turn}
    (takes : c.session.TakesTurn t k s turn) :
    let s' := (Publisher.step ⟨c.session.node, s, []⟩ turn).resource
    s'.pendingRefreshes = s'.endpoint.registration.elim 0 (c.step t).outstanding := by
  by_cases shut : turn = .call .shutdown
  · subst shut
    obtain ⟨unregistered, pending, -⟩ := Publisher.shutdown_resource ⟨c.session.node, s, []⟩
    intro s'
    rw [unregistered, pending]
    rfl
  by_cases anew : turn = .call .register
  · subst anew
    exact h.counted_of_register regular here takes
  have accounts := Publisher.accounts_turn (p := ⟨c.session.node, s, []⟩) takes.lent shut anew
    (fun id current x member =>
      h.others_apart ((asksAt_of_observable here).trans current) (takes.others x member))
    fun id current => by
      have kept := Publisher.step_registration (p := ⟨c.session.node, s, []⟩) shut anew
      have asks : (c.step t).session.asksAt k = some id :=
        (asksAt_of_observable (c := c.step t) takes.resource).trans (kept.trans current)
      rw [takes.asked]
      exact (not_imposed (regular.own id asks)).2
  rw [← takes.radio] at accounts
  refine h.counted_of_accounts regular here takes.resource accounts fun id current => ?_
  rw [Publisher.spends_of_some current, takes.elapses]

theorem Counted.counted_step (h : c.Counted k) (regular : c.Regular k t) {s' : Observable}
    (back : (c.step t).session.services[k]? = some (.observable s')) :
    s'.pendingRefreshes = s'.endpoint.registration.elim 0 (c.step t).outstanding := by
  -- a resource that is there already is lent or left alone; only a lent one does anything
  rcases (c.session.perform_settles t).resource back with ⟨s, here⟩ | ⟨rfl, pending, -⟩
  · by_cases lent : k ∈ c.session.lends t
    · rcases Session.takesTurn_of_lent here lent regular.lent with
        ⟨turn, takes⟩ | ⟨same, silent⟩
      · have counted := h.counted_of_turn regular here takes
        have resource := back.symm.trans takes.resource
        cases resource
        exact counted
      · have idle : (c.step t).outstanding = c.outstanding := by
          funext id
          simp [outstanding, step, radio, same, silent]
        rw [idle]
        rw [step, same] at back
        exact h.counted s' back
    · obtain ⟨kept, counted⟩ := h.counted_of_away regular here lent
      cases back.symm.trans kept
      exact counted
  · -- a new resource, whose registration is new as well
    rw [pending]
    cases current : s'.endpoint.registration with
    | none => rfl
    | some id =>
      have asks := (asksAt_of_observable back).trans current
      exact (h.outstanding_of_new regular asks (by simp [Session.asksAt])).symm

theorem Counted.step (h : c.Counted k) (regular : c.Regular k t) : (c.step t).Counted k where
  balanced := h.balanced_step regular
  granted _ _ asks := h.granted_step regular.unwrapped asks
  apart _ _ _ one other := h.apart_step one other
  unasked _ own ahead := h.unasked_step regular.unwrapped own ahead
  counted _ back := h.counted_step regular back

theorem Counted.after {steps : List Step} (h : c.Counted k) (regularly : c.Regularly k steps) :
    (c.after steps).Counted k := by
  induction steps generalizing c with
  | nil => exact h
  | cons t rest ih => exact ih (h.step regularly.1) regularly.2

theorem start_counted (self : NodeId) (config : Config) (scale : TickScale) (k : Nat) :
    (start self config scale).Counted k where
  balanced _ := Nat.le_refl _
  granted i id asks := by simp [start, Session.start, Session.asksAt] at asks
  apart i j id asks := by simp [start, Session.start, Session.asksAt] at asks
  unasked _ _ _ := rfl
  counted s here := by simp [start, Session.start] at here

end Course

/-! ## An event that elapses -/

theorem Service.timerFires_radio {s : Service} {id : RegistrationId} (other : s.asks ≠ some id)
    (n : Node) :
    (if s.registration = some id then s.timerFired n id else (s, n)).2.radio = n.radio := by
  split
  · next mine =>
    cases s with
    | plain e => rfl
    | observable s => exact absurd mine other
    | probe p =>
      unfold timerFired Probe.tell
      simp only
      split <;> rfl
  · rfl

theorem Node.toldStale_radio {id : RegistrationId} {services : List Service}
    (others : ∀ x ∈ services, x.asks ≠ some id) (n : Node) :
    (n.toldStale id services).2.radio = n.radio :=
  Service.forEach_related (R := fun r s => s = r) (fun _ => rfl)
    (fun first second => second.trans first)
    (fun x member n => Service.timerFires_radio (others x member) n) n

namespace Observable

inductive Refreshes (s : Observable) (r : Radio) : List Observer → Radio → Prop
  | silent {e : RuntimeError} (broken : r.now = .error e) : Refreshes s r s.observers r
  | informs {now : Nat} {taken : List Transmission} {observers : List Observer} {r' : Radio}
      (clock : r.now = .ok now) (informs : s.Informs now r s.observers taken observers r') :
      Refreshes s r observers r'

theorem notifyObservers_refreshes (s : Observable) (r : Radio) :
    ∃ observers, s.Refreshes r observers (s.notifyObservers r true).2.1 ∧
      (s.notifyObservers r true).1 = { s with observers } := by
  unfold notifyObservers
  split
  · next broken => exact ⟨_, .silent broken, rfl⟩
  · next now clock =>
    obtain ⟨taken, informs⟩ := s.notifyEach_informs now r s.observers
    exact ⟨_, .informs clock informs, rfl⟩

/-- After the last refresh outstanding everybody is told, and the next is asked for. -/
theorem timerFired_last {s : Observable} {id : RegistrationId} (r : Radio)
    (mine : s.endpoint.registration = some id) (last : s.pendingRefreshes - 1 = 0)
    (observed : s.observers ≠ []) :
    ∃ observers r' log,
      { s with counter := s.counter + 1, pendingRefreshes := 0 }.Refreshes r observers r' ∧
        r.Leads r' ∧ s.timerFired r =
          ({ s with counter := s.counter + 1, observers, pendingRefreshes := 1 },
            { r' with log }.schedule (s.maxAge.toNat * 1000) (.maxAge id)) := by
  rcases s.timerFired_cases r with ⟨idle, -⟩ | ⟨-, -, log, same⟩
  · rw [last] at idle
    exact absurd (idle.resolve_left (Nat.lt_irrefl 0)) observed
  · obtain ⟨observers, refreshes, whole⟩ := notifyObservers_refreshes
      { s with counter := s.counter + 1, pendingRefreshes := 0 } r
    refine ⟨observers, _, log, refreshes, fun R steady => steady.notifyObservers _ r true, ?_⟩
    rw [same, last, whole]
    simp [scheduleRefresh, mine]

end Observable

theorem Turn.eq_fire {t : Turn} {s : Observable} {event : TimerEvent} (lent : ∀ op, t ≠ .apart op)
    (elapses : (t.operation s).elapses = some event) :
    ∃ before after, t = .fire event before after := by
  cases t with
  | fire event before after =>
    cases elapses
    exact ⟨before, after, rfl⟩
  | receive _ _ _ _ | call _ => cases elapses
  | apart op => exact absurd rfl (lent op)

namespace Publisher

/-- An event concerns the one resource that asks for refreshes under its registration. -/
theorem step_of_refresh (p : Publisher) {id : RegistrationId} {before after : List Service}
    (mine : p.resource.endpoint.registration = some id)
    (others : ∀ x ∈ before ++ after, x.asks ≠ some id) :
    (p.step (.fire (.maxAge id) before after)).resource =
        (p.resource.timerFired p.node.radio).1 ∧
      (p.step (.fire (.maxAge id) before after)).node.radio =
        (p.resource.timerFired p.node.radio).2 := by
  obtain ⟨earlier, later⟩ := List.forall_mem_append.mp others
  have first := p.node.toldStale_radio earlier
  constructor
  · rw [p.step_resource, visit?, if_pos mine, Option.elim_some, Visit.done, first]
  · have own : (Service.observable p.resource).registration = some id := mine
    change (p.node.toldStale id (before ++ .observable p.resource :: after)).2.radio = _
    rw [Node.toldStale, Service.forEach_append]
    simp only [Service.forEach, if_pos own]
    refine (Node.toldStale_radio later _).trans ?_
    exact congrArg (fun r => (p.resource.timerFired r).2) first

end Publisher

namespace Course

variable {c : Course} {k : Nat} {choice : EventChoice} {lent : Option (List Nat)}
  {id : RegistrationId}

/-- What an event does for the resource at a position. Only the last refresh outstanding under its
registration is acted on, if anybody observes; then the next is asked for. -/
inductive Fires (c : Course) (k : Nat) (s : Observable) (id : RegistrationId) (c' : Course) : Prop
  | passes (other : s.endpoint.registration ≠ some id)
      (resource : c'.session.services[k]? = some (.observable s))
      (idle : (∀ i, c.session.asksAt i ≠ some id) → c'.radio = c.radio)
  | waits (mine : s.endpoint.registration = some id)
      (idle : 1 < c.outstanding id ∨ s.observers = [])
      (resource : c'.session.services[k]? =
        some (.observable { s with pendingRefreshes := s.pendingRefreshes - 1 }))
      (radio : c'.radio = c.radio)
  | refreshes (mine : s.endpoint.registration = some id) (last : c.outstanding id = 1)
      (observed : s.observers ≠ []) {told : List Observer} {r : Radio} {log : List LogRecord}
      (refreshes : { s with counter := s.counter + 1, pendingRefreshes := 0 }.Refreshes
        c.radio told r)
      (resource : c'.session.services[k]? = some (.observable
        { s with counter := s.counter + 1, observers := told, pendingRefreshes := 1 }))
      (radio : c'.radio = { r with log }.schedule (s.maxAge.toNat * 1000) (.maxAge id))
      (next : c'.outstanding id = 1)
      (asked : ∀ x, c'.radio.refreshes x = c.radio.refreshes x + if x = id then 1 else 0)

theorem fire_radio (chosen : c.session.chosenEvent choice = some (.maxAge id))
    (nobody : ∀ i, c.session.asksAt i ≠ some id) :
    (c.step (.fire choice lent)).radio = c.radio := by
  change (c.session.fire choice lent).1.node.radio = _
  rw [(Session.fire_outcome chosen lent).1]
  refine Node.toldStale_radio (fun x member asks => ?_) c.session.node
  obtain ⟨i, -, here⟩ := List.mem_filterMap.mp member
  exact nobody i ((Session.asksAt_of_some here).trans asks)

theorem Counted.fires_other (h : c.Counted k) (regular : c.Regular k (.fire choice lent))
    {s : Observable} (here : c.session.services[k]? = some (.observable s))
    (chosen : c.session.chosenEvent choice = some (.maxAge id))
    (other : s.endpoint.registration ≠ some id) :
    (c.step (.fire choice lent)).session.services[k]? = some (.observable s) := by
  by_cases mine : k ∈ c.session.lends (.fire choice lent)
  · rcases Session.takesTurn_of_lent here mine regular.lent with ⟨turn, takes⟩ | ⟨same, -⟩
    · obtain ⟨before, after, rfl⟩ := Turn.eq_fire takes.lent (takes.elapses.trans chosen)
      refine takes.resource.trans ?_
      rw [Publisher.step_resource, Publisher.visit?, if_neg other, Option.elim_none]
    · rw [Course.step, same]
      exact here
  · exact (h.counted_of_away regular here mine).1

theorem Counted.fires_own (h : c.Counted k) (regular : c.Regular k (.fire choice lent))
    {s : Observable} (here : c.session.services[k]? = some (.observable s))
    (chosen : c.session.chosenEvent choice = some (.maxAge id))
    (mine : s.endpoint.registration = some id) :
    (c.step (.fire choice lent)).session.services[k]? =
        some (.observable (s.timerFired c.radio).1) ∧
      (c.step (.fire choice lent)).radio = (s.timerFired c.radio).2 := by
  have asks := (asksAt_of_observable here).trans mine
  rcases Session.takesTurn_of_lent here (regular.present id asks chosen) regular.lent with
    ⟨turn, takes⟩ | ⟨-, silent⟩
  · obtain ⟨before, after, rfl⟩ := Turn.eq_fire takes.lent (takes.elapses.trans chosen)
    obtain ⟨resource, radio⟩ := Publisher.step_of_refresh ⟨c.session.node, s, []⟩ mine
      fun x member => h.others_apart asks (takes.others x member)
    exact ⟨takes.resource.trans (by rw [resource]; rfl), takes.radio.trans radio⟩
  · rw [Session.elapses, chosen] at silent
    cases silent

theorem Counted.fires (h : c.Counted k) (regular : c.Regular k (.fire choice lent))
    {s : Observable} (here : c.session.services[k]? = some (.observable s))
    (chosen : c.session.chosenEvent choice = some (.maxAge id)) :
    c.Fires k s id (c.step (.fire choice lent)) := by
  by_cases mine : s.endpoint.registration = some id
  case neg => exact .passes mine (h.fires_other regular here chosen mine) (fire_radio chosen)
  have pending := h.counted s here
  rw [mine, Option.elim_some] at pending
  have left := regular.once id chosen
  obtain ⟨resource, radio⟩ := h.fires_own regular here chosen mine
  rcases s.timerFired_cases c.radio with ⟨idle, same⟩ | ⟨spent, observed, log, same⟩
  · rw [same] at resource radio
    exact .waits mine (idle.imp_left fun more => by omega) resource radio
  · -- everybody is told, and the next refresh is the only one outstanding
    obtain ⟨told, r, log, refreshes, leads, same⟩ :=
      Observable.timerFired_last c.radio mine spent observed
    rw [same] at resource radio
    have next := (h.step regular).counted _ resource
    rw [mine, Option.elim_some] at next
    refine .refreshes mine (by omega) observed refreshes resource radio next.symm fun x => ?_
    rw [radio, Radio.refreshes_schedule]
    have kept : Radio.refreshes { r with log } x = c.radio.refreshes x := leads.refreshes x
    simp only [kept, TimerEvent.maxAge.injEq, eq_comm]

theorem Counted.reserved (h : c.Counted k) (asks : c.session.asksAt k = some id) :
    c.Reserved k id := ⟨h.granted k id asks, fun i other => h.apart i k id other asks⟩

theorem Regularly.append {earlier later : List Step}
    (regularly : c.Regularly k (earlier ++ later)) :
    c.Regularly k earlier ∧ (c.after earlier).Regularly k later := by
  induction earlier generalizing c with
  | nil => exact ⟨trivial, regularly⟩
  | cons t rest ih =>
    obtain ⟨before, after⟩ := ih regularly.2
    exact ⟨⟨regularly.1, before⟩, after⟩

/-- A resource counts as pending what is outstanding under its registration. When an event elapses,
the resource tells everybody exactly if that was the last of its own and somebody observes, and then
asks for the next. What elapses under a registration that it had before does nothing. This takes a
resource that nobody else ends the registration of, and that is lent when its events elapse, each
once; and registrations under which the application does not ask for refreshes itself, fewer than
65536 in all. -/
theorem refreshes_counted (self : NodeId) (config : Config) (scale : TickScale) (k : Nat)
    (earlier later : List Step)
    (regularly : (start self config scale).Regularly k (earlier ++ later)) :
    let before := (start self config scale).after earlier
    let c := before.after later
    ∀ s, c.session.services[k]? = some (.observable s) →
      s.pendingRefreshes = s.endpoint.registration.elim 0 c.outstanding ∧
        ∀ choice lent id, c.session.chosenEvent choice = some (.maxAge id) →
          c.Regular k (.fire choice lent) →
          c.Fires k s id (c.step (.fire choice lent)) ∧
            (before.session.asksAt k = some id → s.endpoint.registration ≠ some id →
              (c.step (.fire choice lent)).radio = c.radio) := by
  intro before c s here
  obtain ⟨regularly, regularly'⟩ := regularly.append
  have counted : before.Counted k := (start_counted self config scale k).after regularly
  have counted' : c.Counted k := counted.after regularly'
  refine ⟨counted'.counted s here, fun choice lent id chosen regular =>
    ⟨counted'.fires regular here chosen, fun former other => fire_radio chosen fun i asks => ?_⟩⟩
  obtain rfl := ((counted.reserved former).after regularly').mine i asks
  exact other ((asksAt_of_observable here).symm.trans asks)

def observing : List Step :=
  [.createService (.observable "a" (.fixed []) (.natural 5) Renderer.plain),
    .receive 1 [0x43, 1, 0, 9, 0x91, 97, 0x10, 0x11, 7] none none]

set_option maxRecDepth 10000 in
/-- A new status asks for a second refresh. Of the two the last to elapse is sent. -/
theorem refreshes_counted_twice :
    let start := start 0 {} .millisecond
    let steps := observing ++
      [.callService 0 (.setStatus (.natural 6)), .fire (.event (.maxAge ⟨0⟩)) none]
    let c := start.after steps
    start.Regularly 0 steps ∧ c.elapsed = [.maxAge ⟨0⟩] ∧
      ∃ s, c.session.services[0]? = some (.observable s) ∧ s.pendingRefreshes = 1 ∧
        s.observers.map (·.peer) = [1] ∧
        c.Fires 0 s ⟨0⟩ (c.step (.fire (.event (.maxAge ⟨0⟩)) none)) := by
  intro start steps c
  have regularly : start.Regularly 0 steps := by decide +kernel
  have regular : c.Regular 0 (.fire (.event (.maxAge ⟨0⟩)) none) := by decide +kernel
  have known : (c.session.services[0]?.bind (·.observable?)).map
      (fun s => (s.endpoint.registration, s.observers.map (·.peer))) = some (some ⟨0⟩, [1]) := by
    decide +kernel
  have left : c.outstanding ⟨0⟩ = 1 := by decide +kernel
  obtain ⟨s, found, same⟩ := Option.map_eq_some_iff.mp known
  obtain ⟨x, here, resource⟩ := Option.bind_eq_some_iff.mp found
  cases x with
  | plain e | probe p => cases resource
  | observable s' =>
    cases resource
    obtain ⟨registration, peers⟩ := Prod.mk.inj same
    obtain ⟨pending, fires⟩ := refreshes_counted 0 {} .millisecond 0 observing
      [.callService 0 (.setStatus (.natural 6)), .fire (.event (.maxAge ⟨0⟩)) none] regularly s here
    rw [registration, Option.elim_some] at pending
    exact ⟨regularly, by decide +kernel, s, here, pending.trans left, peers,
      (fires _ none ⟨0⟩ rfl regular).1⟩

set_option maxRecDepth 10000 in
/-- With a broken clock the last refresh outstanding is not sent, although there is an observer. And
a refresh that the application asks for itself is outstanding, but is not counted. -/
theorem refreshes_miscounted :
    let start := start 0 {} .millisecond
    (let steps := observing ++ [.setClock 0 true]
      let c := start.after steps
      let fire := .fire (.event (.maxAge ⟨0⟩)) none
      start.Regularly 0 steps ∧ c.Regular 0 fire ∧ c.outstanding ⟨0⟩ = 1 ∧
        c.session.observers.map (·.map (·.peer)) = [[1]] ∧
        (c.step fire).radio.transmissions = c.radio.transmissions) ∧
      (let c := start.after (observing ++ [.schedule 0 (.maxAge ⟨0⟩)])
      c.session.asksAt 0 = some ⟨0⟩ ∧ c.outstanding ⟨0⟩ = 2 ∧
        c.session.services.map (fun x => x.observable?.map (·.pendingRefreshes)) = [some 1]) := by
  decide +kernel

end Course
end CoapNode
