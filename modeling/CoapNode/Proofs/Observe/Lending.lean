import CoapNode.Proofs.Node.Registrations
import CoapNode.Proofs.Observe.Accounting
import CoapNode.Proofs.Observe.Keeping
/-! A session seen from one of its observable resources. To a resource that a step lends or calls
the step is a turn, in which the services at other positions are the others; any other resource is
left as it is. -/
namespace CoapNode

/-! ## Entries put back in their places -/

section

variable {α β : Type} {places : List Nat} {entries all : List α} {k j : Nat}

def putBack (all : List α) (places : List Nat) (entries : List α) : List α :=
  (places.zip entries).foldl (fun all (i, x) => all.set i x) all

theorem putBack_cons (i : Nat) (x : α) :
    putBack all (i :: places) (x :: entries) = putBack (all.set i x) places entries := rfl

theorem putBack_of_not_mem (elsewhere : k ∉ places) :
    (putBack all places entries)[k]? = all[k]? := by
  induction places generalizing all entries with
  | nil => rfl
  | cons i places ih =>
    cases entries with
    | nil => rfl
    | cons x entries =>
      rw [putBack_cons, ih (List.not_mem_of_not_mem_cons elsewhere),
        List.getElem?_set_ne (List.ne_of_not_mem_cons elsewhere).symm]

theorem putBack_of_getElem? {x : α} (distinct : places.Nodup) (place : places[j]? = some k)
    (entry : entries[j]? = some x) (inside : k < all.length) :
    (putBack all places entries)[k]? = some x := by
  induction places generalizing all entries j with
  | nil => cases place
  | cons i places ih =>
    obtain ⟨apart, distinct⟩ := List.nodup_cons.mp distinct
    cases entries with
    | nil => cases entry
    | cons y entries =>
      rw [putBack_cons]
      cases j with
      | zero =>
        -- no later place is the same, so the entry stays
        cases place
        cases entry
        rw [putBack_of_not_mem apart, List.getElem?_set_self inside]
      | succ j => exact ih distinct place entry (by rwa [List.length_set])

theorem putBack_map {f : α → β} (inside : ∀ i ∈ places, i < all.length)
    (same : entries.map f = places.filterMap fun i => (all.map f)[i]?) :
    (putBack all places entries).map f = all.map f := by
  induction places generalizing all entries with
  | nil => rfl
  | cons i places ih =>
    obtain ⟨here, inside⟩ := List.forall_mem_cons.mp inside
    have old : (all.map f)[i]? = some (f all[i]) := by simp [here]
    rw [List.filterMap_cons_some old] at same
    cases entries with
    | nil => cases same
    | cons x entries =>
      obtain ⟨first, later⟩ := List.cons.inj same
      have kept : (all.set i x).map f = all.map f := by
        rw [List.map_set, first, ← List.getElem_map f (h := by simpa using here)]
        exact List.set_getElem_self _
      rw [putBack_cons, ih (by simpa using inside) (by rw [kept]; exact later), kept]

end

/-! ## Endpoints of resources -/

namespace Observable

theorem enter_endpoint (s : Observable) (r : Radio) (o : Observer) :
    (s.enter r o).1.endpoint = s.endpoint := by
  have put := (s.putObserver_kept r o).1
  unfold enter
  simp only
  split
  · rw [scheduleRefresh_endpoint, put]
  · exact put

theorem offer_endpoint (s : Observable) (n : Node) (m : Received) :
    (s.offer n m).1.endpoint = s.endpoint := by
  have serves := s.offer_cases n m
  generalize (s.offer n m).1 = s' at serves
  generalize (s.offer n m).2.1 = n' at serves
  cases serves with
  | apart | failed | stopped => rfl
  | registered => exact s.enter_endpoint _ _

theorem timerFired_endpoint (s : Observable) (r : Radio) :
    (s.timerFired r).1.endpoint = s.endpoint := by
  rcases s.timerFired_cases r with ⟨-, same⟩ | ⟨-, -, log, same⟩
  · rw [same]
  · rw [same, scheduleRefresh_endpoint]
    exact (notifyObservers_kept _ r true).1

theorem forgetNotified_endpoint (s : Observable) (r : Radio) (peer : NodeId) (id : MessageId) :
    (s.forgetNotified r peer id).1.endpoint = s.endpoint := by
  rcases s.forgetNotified_cases r peer id with ⟨-, same⟩ | ⟨o, -, -, -, same⟩ <;> rw [same]
  rfl

theorem created_registration {r r' : Radio} {path : String} {handler : Handler}
    {status : Reading} {renderer : Renderer} {s : Observable}
    (created : Observable.create r path handler status renderer = (r', .ok s)) :
    s.endpoint.registration = some r.nextRegistration ∧
      r'.nextRegistration = r.nextRegistration.next := by
  unfold Observable.create Endpoint.create Endpoint.attach at created
  rcases whole : r.register path with ⟨r₁, refusal | id⟩
  · simp [whole] at created
  · obtain ⟨-, -, _, refused⟩ | ⟨-, next, granted⟩ := r.register_cases path
    · rw [whole] at refused
      cases refused
    · rw [whole] at next granted
      cases granted
      simp only [whole, Option.filter_none, Prod.mk.injEq, Except.ok.injEq] at created
      obtain ⟨rfl, rfl⟩ := created
      exact ⟨rfl, next⟩

end Observable

namespace Service

def host? (s : Service) : Option Endpoint := s.observable?.map (·.endpoint)

theorem asks_eq (s : Service) : s.asks = s.host?.bind (·.registration) := by
  cases s <;> rfl

theorem observable_of_host? {x : Service} (resource : x.host?.isSome = true) :
    ∃ o, x = .observable o := by
  cases x with
  | observable o => exact ⟨o, rfl⟩
  | plain e | probe p => cases resource

section

variable {α : Type} {f : Service → α} (kept : ∀ s s' : Observable, s'.endpoint = s.endpoint →
  f (.observable s') = f (.observable s))

include kept

theorem withstands_of_endpoint : Withstands f fun _ => True where
  offer s n m _ := by
    cases s with
    | plain e =>
      unfold offer
      simp only
      split <;> rfl
    | observable s => exact kept _ _ (s.offer_endpoint n m)
    | probe p => rfl
  peerReset s n _ _ token := by
    cases s with
    | observable s => exact kept _ _ rfl
    | plain e | probe p => rfl
  unmatchedReset s n peer _ id := by
    cases s with
    | observable s => exact kept _ _ (s.forgetNotified_endpoint n.radio peer id)
    | plain e | probe p => rfl

theorem outlasts_of_endpoint : Outlasts f where
  timerFired s n id := by
    cases s with
    | observable s => exact kept _ _ (s.timerFired_endpoint n.radio)
    | plain e | probe p => rfl
  expired s n peer token := by
    cases s with
    | observable s => exact kept _ _ rfl
    | plain e | probe p => rfl

end

theorem withstands_host : Withstands host? fun _ => True :=
  withstands_of_endpoint fun _ _ same => congrArg some same

theorem outlasts_host : Outlasts host? := outlasts_of_endpoint fun _ _ same => congrArg some same

theorem call_asks (s : Service) (r : Radio) (c : ServiceCall) :
    (s.call r c).1.asks = s.asks ∨ (s.call r c).1.asks = none ∨
      (s.call r c).1.asks = some r.nextRegistration ∧
        (s.call r c).2.1.nextRegistration = r.nextRegistration.next := by
  cases s with
  | plain e => cases c <;> exact .inl rfl
  | probe p => exact .inl rfl
  | observable s =>
    obtain ⟨resource, radio⟩ := s.call_observable r c
    rw [resource, radio]
    by_cases shut : c = .shutdown
    · subst shut
      exact .inr (.inl (r.shutdown_registration s.endpoint))
    by_cases anew : c = .register
    · subst anew
      rcases r.attach_cases s.endpoint with same | ⟨-, fresh, next⟩
      · exact .inl (congrArg Endpoint.registration same)
      · exact .inr (.inr ⟨congrArg Endpoint.registration fresh, next⟩)
    exact .inl (s.accounts_called r shut anew).registration

theorem created_asks {r r' : Radio} {spec : ServiceSpec} {x : Service}
    (created : Service.create r spec = (r', .ok x)) :
    (x.asks = none ∨ x.asks = some r.nextRegistration ∧
        r'.nextRegistration = r.nextRegistration.next) ∧
      ∀ o, x = .observable o → o.pendingRefreshes = 0 := by
  cases spec with
  | plain path handler =>
    unfold create at created
    rcases done : Endpoint.create r path handler with ⟨r₁, refusal | e⟩ <;>
      simp only [done, Except.map, Prod.mk.injEq, reduceCtorEq, and_false, Except.ok.injEq]
        at created
    obtain ⟨rfl, rfl⟩ := created
    exact ⟨.inl rfl, by simp⟩
  | observable path handler status renderer =>
    unfold create at created
    rcases done : Observable.create r path handler status renderer with ⟨r₁, refusal | o⟩ <;>
      simp only [done, Except.map, Prod.mk.injEq, reduceCtorEq, and_false, Except.ok.injEq]
        at created
    obtain ⟨rfl, rfl⟩ := created
    refine ⟨.inr (Observable.created_registration done), ?_⟩
    rintro _ ⟨⟩
    exact (Publisher.created_observers done).2
  | probe p =>
    cases created
    exact ⟨.inl rfl, by simp⟩

theorem call_host?_isSome (s : Service) (r : Radio) (c : ServiceCall) :
    (s.call r c).1.host?.isSome = s.host?.isSome := by
  cases s with
  | plain e => cases c <;> rfl
  | probe p => rfl
  | observable s => rw [(s.call_observable r c).1]; rfl

end Service

namespace Session

variable {s : Session} {positions : List Nat} {k : Nat} {o : Observable} {step : Step}

/-! ## Services lent -/

def lends (s : Session) : Step → List Nat
  | .receive _ _ _ lent | .fire _ lent => s.lentPositions lent
  | .callService position _ => [position % s.services.length]
  | _ => []

def elapses (s : Session) : Step → Option TimerEvent
  | .fire choice _ => s.chosenEvent choice
  | _ => none

/-- The events that the application asks for itself in a step, in handlers or outside. -/
def asked (s : Session) : Step → List TimerEvent
  | .receive peer bytes idOf lent => (s.receive peer bytes idOf lent).1.node.askedSince s.node
  | .schedule _ event => [event]
  | .onKept position (.perform a) =>
    s.node.stash[position % s.node.stash.length]?.elim [] fun _ => a.asked?.toList
  | _ => []

theorem lentPositions_inside (s : Session) (lent : Option (List Nat)) :
    ∀ i ∈ s.lentPositions lent, i < s.services.length := by
  intro i member
  simpa using (List.mem_filter.mp member).2

theorem lentServices_length (inside : ∀ i ∈ positions, i < s.services.length) :
    (s.lentServices positions).length = positions.length := by
  induction positions with
  | nil => rfl
  | cons i positions ih =>
    obtain ⟨here, inside⟩ := List.forall_mem_cons.mp inside
    rw [lentServices, List.filterMap_cons_some (List.getElem?_eq_getElem here)]
    exact congrArg (· + 1) (ih inside)

theorem lentServices_middle (here : s.services[k]? = some (.observable o)) (lent : k ∈ positions)
    (once : positions.Nodup) (inside : ∀ i ∈ positions, i < s.services.length) :
    ∃ before after, s.lentServices positions = before ++ .observable o :: after ∧
      positions[before.length]? = some k ∧
      ∀ x ∈ before ++ after, ∃ i, i ≠ k ∧ s.services[i]? = some x := by
  obtain ⟨earlier, later, rfl⟩ := List.append_of_mem lent
  obtain ⟨insideEarlier, insideLater⟩ := List.forall_mem_append.mp inside
  refine ⟨s.lentServices earlier, s.lentServices later, ?_, ?_, fun x member => ?_⟩
  · rw [lentServices, List.filterMap_append, List.filterMap_cons_some here]
    rfl
  · rw [lentServices_length insideEarlier]
    simp
  · obtain ⟨-, distinct, apart⟩ := List.nodup_append.mp once
    rcases List.mem_append.mp member with member | member <;>
      obtain ⟨i, place, at'⟩ := List.mem_filterMap.mp member
    · exact ⟨i, apart i place k List.mem_cons_self, at'⟩
    · refine ⟨i, ?_, at'⟩
      rintro rfl
      exact (List.nodup_cons.mp distinct).1 place

theorem receive_outcome (s : Session) (peer : NodeId) (bytes : List UInt8) (idOf : Option Nat)
    (lent : Option (List Nat)) :
    ∃ datagram, (s.receive peer bytes idOf lent).1.node.radio =
        (s.node.receive peer datagram (s.lentServices (s.lentPositions lent))).1.radio ∧
      (s.receive peer bytes idOf lent).1.node.journal =
        (s.node.receive peer datagram (s.lentServices (s.lentPositions lent))).1.journal ∧
      (s.receive peer bytes idOf lent).1.services = putBack s.services (s.lentPositions lent)
        (s.node.receive peer datagram (s.lentServices (s.lentPositions lent))).2.1 := by
  refine ⟨(idOf.bind fun k => cyclic? s.node.radio.network.delivered k).elim bytes
    fun d => replaceId bytes d.bytes, ?_⟩
  unfold receive
  simp only
  split <;> exact ⟨rfl, rfl, rfl⟩

theorem fire_outcome {choice : EventChoice} {event : TimerEvent}
    (chosen : s.chosenEvent choice = some event) (lent : Option (List Nat)) :
    (s.fire choice lent).1.node =
        (s.node.fire event (s.lentServices (s.lentPositions lent))).1 ∧
      (s.fire choice lent).1.services = putBack s.services (s.lentPositions lent)
        (s.node.fire event (s.lentServices (s.lentPositions lent))).2.1 := by
  unfold fire
  rw [chosen]
  exact ⟨rfl, rfl⟩

theorem fire_of_none {choice : EventChoice} (none : s.chosenEvent choice = none)
    (lent : Option (List Nat)) : (s.fire choice lent).1 = s := by
  unfold fire
  rw [none]

theorem callService_outcome {position : Nat} {x : Service}
    (here : s.services[position % s.services.length]? = some x) (c : ServiceCall) :
    (s.callService position c).1.node.radio = (x.call s.node.radio c).2.1 ∧
      (s.callService position c).1.services =
        s.services.set (position % s.services.length) (x.call s.node.radio c).1 := by
  unfold callService
  simp [here, withRadio]

theorem callService_of_none {position : Nat}
    (nobody : s.services[position % s.services.length]? = none) (c : ServiceCall) :
    (s.callService position c).1 = s := by
  unfold callService
  simp only [nobody]

/-! ## Turns of a resource -/

/-- What a step is to the resource at a position. -/
structure TakesTurn (s : Session) (step : Step) (k : Nat) (o : Observable) (t : Turn) : Prop where
  lent : ∀ op, t ≠ .apart op
  others : ∀ x ∈ t.others, ∃ i, i ≠ k ∧ s.services[i]? = some x
  elapses : (t.operation o).elapses = s.elapses step
  asked : (t.operation o).asked s.node = s.asked step
  radio : (s.perform step).1.node.radio = (Publisher.step ⟨s.node, o, []⟩ t).node.radio
  resource : (s.perform step).1.services[k]? =
    some (.observable (Publisher.step ⟨s.node, o, []⟩ t).resource)

theorem returned_resource {p : Publisher} {t : Turn} (lent : ∀ op, t ≠ .apart op) :
    p.returned t = some (.observable (p.step t).resource) := by
  rw [p.step_resource]
  exact (p.hosts_returned lasting_trivial t lent (fun _ _ _ _ _ _ => trivial)
    fun _ _ _ _ => trivial).back

/-- A step that lends the resource is a turn of it, unless there is no event to elapse. -/
theorem takesTurn_of_lent (here : s.services[k]? = some (.observable o)) (lent : k ∈ s.lends step)
    (once : (s.lends step).Nodup) :
    (∃ t, s.TakesTurn step k o t) ∨ (s.perform step).1 = s ∧ s.elapses step = none := by
  obtain ⟨inside, -⟩ := List.getElem?_eq_some_iff.mp here
  cases step with
  | receive peer bytes idOf positions =>
    change k ∈ s.lentPositions positions at lent
    change (s.lentPositions positions).Nodup at once
    obtain ⟨before, after, services, place, others⟩ := lentServices_middle here lent once
      (s.lentPositions_inside positions)
    obtain ⟨datagram, radio, journal, back⟩ := s.receive_outcome peer bytes idOf positions
    rw [services] at radio journal back
    have asked : Operation.asked (.receive peer datagram (before ++ .observable o :: after))
        s.node = s.asked (.receive peer bytes idOf positions) := by
      simp only [Operation.asked, Operation.apply, asked, Node.askedSince, journal]
    refine .inl ⟨.receive peer datagram before after, by simp, others, rfl, asked, radio, ?_⟩
    change (s.receive peer bytes idOf positions).1.services[k]? = _
    rw [back]
    refine putBack_of_getElem? once place ?_ inside
    exact returned_resource (p := ⟨s.node, o, []⟩) (t := .receive peer datagram before after)
      (by simp)
  | fire choice positions =>
    change k ∈ s.lentPositions positions at lent
    change (s.lentPositions positions).Nodup at once
    obtain ⟨before, after, services, place, others⟩ := lentServices_middle here lent once
      (s.lentPositions_inside positions)
    cases chosen : s.chosenEvent choice with
    | none => exact .inr ⟨fire_of_none chosen positions, chosen⟩
    | some event =>
    obtain ⟨node, back⟩ := fire_outcome chosen positions
    rw [services] at node back
    refine .inl ⟨.fire event before after, by simp, others, chosen.symm, rfl,
      congrArg Node.radio node, ?_⟩
    change (s.fire choice positions).1.services[k]? = _
    rw [back]
    refine putBack_of_getElem? once place ?_ inside
    exact returned_resource (p := ⟨s.node, o, []⟩) (t := .fire event before after) (by simp)
  | callService position call =>
    obtain rfl := List.mem_singleton.mp lent
    obtain ⟨radio, back⟩ := callService_outcome here call
    refine .inl ⟨.call call, by simp, by simp [Turn.others], rfl, rfl, radio, ?_⟩
    change (s.callService position call).1.services[_]? = _
    rw [back, List.getElem?_set_self inside]
    exact returned_resource (p := ⟨s.node, o, []⟩) (t := .call call) (by simp)
  | _ => cases lent

/-! ## What a step leaves -/

def asksAt (s : Session) (i : Nat) : Option RegistrationId := s.services[i]?.bind (·.asks)

theorem asksAt_of_some {i : Nat} {x : Service} (here : s.services[i]? = some x) :
    s.asksAt i = x.asks := by
  rw [asksAt, here, Option.bind_some]

/-- What a step does to the services. -/
inductive Settles (s : Session) : Step → Session → Prop
  | same {step : Step} {s' : Session} (services : s'.services = s.services) : Settles s step s'
  | returned {step : Step} {s' : Session} {back : List Service}
      (inside : ∀ i ∈ s.lends step, i < s.services.length)
      (hosts : back.map (·.host?) = (s.lentServices (s.lends step)).map (·.host?))
      (services : s'.services = putBack s.services (s.lends step) back) : Settles s step s'
  | called {position : Nat} {c : ServiceCall} {x : Service} {s' : Session}
      (here : s.services[position % s.services.length]? = some x)
      (radio : s'.node.radio = (x.call s.node.radio c).2.1)
      (services : s'.services =
        s.services.set (position % s.services.length) (x.call s.node.radio c).1) :
      Settles s (.callService position c) s'
  | created {spec : ServiceSpec} {x : Service} {s' : Session}
      (done : Service.create s.node.radio spec = (s'.node.radio, .ok x))
      (services : s'.services = s.services ++ [x]) : Settles s (.createService spec) s'

theorem perform_settles (s : Session) (step : Step) : s.Settles step (s.perform step).1 := by
  cases step with
  | receive peer bytes idOf lent =>
    obtain ⟨datagram, -, -, back⟩ := s.receive_outcome peer bytes idOf lent
    exact .returned (s.lentPositions_inside lent)
      (Node.receive_keeps Service.withstands_host _ trivial _ _ fun _ _ => trivial) back
  | fire choice lent =>
    cases chosen : s.chosenEvent choice with
    | none => exact .same (congrArg services (fire_of_none chosen lent))
    | some event =>
      exact .returned (s.lentPositions_inside lent)
        (Node.fire_keeps Service.outlasts_host _ _ _) (fire_outcome chosen lent).2
  | createService spec =>
    change s.Settles _ (s.createService spec).1
    unfold createService
    split
    · exact .same rfl
    · next done => exact .created done rfl
  | callService position c =>
    cases here : s.services[position % s.services.length]? with
    | none => exact .same (congrArg services (callService_of_none here c))
    | some x =>
      obtain ⟨radio, services⟩ := callService_outcome here c
      exact .called here radio services
  | onKept position action =>
    refine .same ?_
    change (s.onKept position action).1.services = _
    unfold onKept
    simp only
    split <;> rfl
  | _ => exact .same rfl

theorem Settles.kept {s' : Session} (h : s.Settles step s') (away : k ∉ s.lends step)
    (inside : k < s.services.length) : s'.services[k]? = s.services[k]? := by
  cases h with
  | same services => rw [services]
  | returned _ _ services => rw [services, putBack_of_not_mem away]
  | called here radio services =>
    rw [services, List.getElem?_set_ne]
    exact fun same => away (same ▸ List.mem_cons_self)
  | created done services => rw [services, List.getElem?_append_left inside]

theorem asksAt_eq (s : Session) (i : Nat) :
    s.asksAt i = (s.services.map (·.host?))[i]?.bind (·.bind (·.registration)) := by
  unfold asksAt
  rw [List.getElem?_map]
  cases s.services[i]? with
  | none => rfl
  | some x => exact x.asks_eq

theorem putBack_hosts {back : List Service} (inside : ∀ i ∈ positions, i < s.services.length)
    (hosts : back.map (·.host?) = (s.lentServices positions).map (·.host?)) :
    (putBack s.services positions back).map (·.host?) = s.services.map (·.host?) := by
  refine putBack_map inside (hosts.trans ?_)
  rw [lentServices, List.map_filterMap]
  simp only [List.getElem?_map]

/-- At one position at most another registration is asked under than before: none, or the next. -/
theorem Settles.asks {s' : Session} (h : s.Settles step s') :
    ∃ j, (∀ i, i ≠ j → s'.asksAt i = s.asksAt i) ∧
      (s'.asksAt j = s.asksAt j ∨ s'.asksAt j = none ∨
        s'.asksAt j = some s.node.radio.nextRegistration ∧
          s'.node.radio.nextRegistration = s.node.radio.nextRegistration.next) := by
  cases h with
  | same services =>
    have same : ∀ i, s'.asksAt i = s.asksAt i := fun i => by rw [asksAt, services, asksAt]
    exact ⟨0, fun i _ => same i, .inl (same 0)⟩
  | returned inside hosts services =>
    have same : ∀ i, s'.asksAt i = s.asksAt i := fun i => by
      rw [asksAt_eq, services, putBack_hosts inside hosts, asksAt_eq]
    exact ⟨0, fun i _ => same i, .inl (same 0)⟩
  | @called position c x _ here radio services =>
    refine ⟨position % s.services.length, fun i apart => ?_, ?_⟩
    · rw [asksAt, services, List.getElem?_set_ne apart.symm, asksAt]
    · obtain ⟨inside, -⟩ := List.getElem?_eq_some_iff.mp here
      rw [asksAt, services, List.getElem?_set_self inside, asksAt_of_some here, radio]
      exact x.call_asks s.node.radio c
  | @created spec x _ done services =>
    refine ⟨s.services.length, fun i apart => ?_, .inr ?_⟩
    · rw [asksAt, services, asksAt]
      rcases Nat.lt_or_gt_of_ne apart with inside | beyond
      · rw [List.getElem?_append_left inside]
      · rw [List.getElem?_eq_none (by simp; omega), List.getElem?_eq_none (Nat.le_of_lt beyond)]
    · rw [asksAt, services, List.getElem?_append_right (Nat.le_refl _), Nat.sub_self]
      exact (Service.created_asks done).1

theorem Settles.resource {s' : Session} (h : s.Settles step s')
    (here : s'.services[k]? = some (.observable o)) :
    (∃ o', s.services[k]? = some (.observable o')) ∨
      s.services.length = k ∧ o.pendingRefreshes = 0 ∧ ∃ spec, step = .createService spec := by
  cases h with
  | same services => exact .inl ⟨o, services ▸ here⟩
  | returned inside hosts services =>
    have host : (s.services.map (·.host?))[k]? = some (some o.endpoint) := by
      rw [← putBack_hosts inside hosts, ← services, List.getElem?_map, here]
      rfl
    rw [List.getElem?_map, Option.map_eq_some_iff] at host
    obtain ⟨x, there, same⟩ := host
    obtain ⟨o', rfl⟩ := Service.observable_of_host? (x := x) (by rw [same]; rfl)
    exact .inl ⟨o', there⟩
  | @called position c x _ there radio services =>
    by_cases mine : k = position % s.services.length
    · obtain ⟨inside, -⟩ := List.getElem?_eq_some_iff.mp there
      subst mine
      rw [services, List.getElem?_set_self inside, Option.some.injEq] at here
      have resource := x.call_host?_isSome s.node.radio c
      rw [here] at resource
      obtain ⟨o', rfl⟩ := Service.observable_of_host? resource.symm
      exact .inl ⟨o', there⟩
    · rw [services, List.getElem?_set_ne (Ne.symm mine)] at here
      exact .inl ⟨o, here⟩
  | @created spec x _ done services =>
    rw [services, List.getElem?_append] at here
    split at here
    · exact .inl ⟨o, here⟩
    · next beyond =>
      rw [List.getElem?_singleton] at here
      split at here
      · next last =>
        cases here
        exact .inr ⟨by omega, (Service.created_asks done).2 o rfl, spec, rfl⟩
      · cases here

end Session

/-! ## What lasts through a step -/

namespace Radio

variable {R : Radio → Radio → Prop} (lasting : Lasting R)

include lasting

theorem Lasting.churnOnce (r : Radio) (path : String) : R r (r.churnOnce path).1 := by
  have registered := lasting.register r path
  unfold Radio.churnOnce
  split
  · next r' id done =>
    rw [done] at registered
    exact lasting.trans registered (lasting.trans (lasting.unregister r' id) (lasting.log _ _))
  · next failed =>
    rw [failed] at registered
    exact lasting.trans registered (lasting.log _ _)

theorem Lasting.churn (r : Radio) (path : String) (last : Option RegistrationId) (times : Nat) :
    R r (r.churn path last times).1 := by
  induction times generalizing r last with
  | zero => exact lasting.refl r
  | succ times ih =>
    have once := lasting.churnOnce r path
    unfold Radio.churn
    split
    · next done =>
      rw [done] at once
      exact lasting.trans once (ih _ _)
    · next failed =>
      rw [failed] at once
      exact once

/-- Refreshes are asked for by the services that a step lends, and by the application itself. -/
theorem Lasting.session (s : Session) (step : Step)
    (asks : ∀ i ∈ s.lends step, Permits R (s.asksAt i))
    (tolerates : ∀ event ∈ s.asked step, Tolerates R event) :
    R s.node.radio (s.perform step).1.node.radio := by
  have each : ∀ {positions}, (∀ i ∈ positions, Permits R (s.asksAt i)) →
      ∀ x ∈ s.lentServices positions, Permits R x.asks := by
    intro positions permits x member
    obtain ⟨i, place, here⟩ := List.mem_filterMap.mp member
    have same := permits i place
    rwa [Session.asksAt_of_some here] at same
  cases step with
  | receive peer bytes idOf lent =>
    obtain ⟨datagram, radio, journal, -⟩ := s.receive_outcome peer bytes idOf lent
    change R _ (s.receive peer bytes idOf lent).1.node.radio
    simp only [Session.asked, Node.askedSince, journal] at tolerates
    rw [radio]
    exact lasting.receive s.node peer datagram (each asks) tolerates
  | fire choice lent =>
    change R _ (s.fire choice lent).1.node.radio
    cases chosen : s.chosenEvent choice with
    | none => rw [Session.fire_of_none chosen]; exact lasting.refl _
    | some event =>
      rw [(Session.fire_outcome chosen lent).1]
      exact lasting.fire s.node event (each asks)
  | send peer mode packet => exact lasting.dispatch s.node.radio peer mode packet
  | createService spec =>
    have created := lasting.create s.node.radio spec
    change R _ (s.createService spec).1.node.radio
    unfold Session.createService
    split
    · next failed => rw [failed] at created; exact created
    · next done => rw [done] at created; exact created
  | callService position c =>
    change R _ (s.callService position c).1.node.radio
    cases here : s.services[position % s.services.length]? with
    | none => rw [Session.callService_of_none here]; exact lasting.refl _
    | some x =>
      have permits := asks _ List.mem_cons_self
      rw [Session.asksAt_of_some here] at permits
      rw [(Session.callService_outcome here c).1]
      exact lasting.call x s.node.radio c permits
  | setClock ticks broken => exact lasting.clock s.node.radio ticks broken
  | setOutcomes outcomes => exact lasting.outcomes s.node.radio outcomes
  | schedule after event => exact tolerates event (List.mem_singleton_self _) s.node.radio after
  | register path => exact lasting.register s.node.radio path
  | unregister id => exact lasting.unregister s.node.radio id
  | churn path times => exact lasting.churn s.node.radio path none times
  | drawIds times => exact lasting.drawIds s.node.radio .silent times
  | drawTokens times => exact lasting.drawTokens s.node.radio .silent times
  | onKept position action =>
    change R _ (s.onKept position action).1.node.radio
    unfold Session.onKept
    simp only
    split
    · exact lasting.refl _
    · next m here =>
      cases action with
      | perform a =>
        rw [Session.asked, here, Option.elim_some] at tolerates
        exact lasting.perform a s.node m fun event asked =>
          tolerates event (Option.mem_toList.mpr asked)
      | mark acknowledged answered => exact lasting.refl _
  | self | now | isRegistered _ | keep _ _ | config | inspect => exact lasting.refl _

end Radio
end CoapNode
