import CoapNode.Session
import CoapNode.Proofs.Observe.Admission
import CoapNode.Proofs.Radio.Growth
/-! What holds between a radio and the same radio later on. A radio changes only by elementary
steps: it notes, schedules, offers a datagram, draws a number, edits a table. A relation that each
of these keeps is kept by everything that services do with a radio. Refreshes are asked for by
observable resources, each under its own registration, and handlers ask for the events that they
write down. -/
namespace CoapNode

/-! ## What stays of a resource -/

def Service.asks : Service → Option RegistrationId
  | observable s => s.endpoint.registration
  | _ => none

theorem Service.forEach_related {R : Radio → Radio → Prop} (refl : ∀ r, R r r)
    (trans : ∀ {r s t}, R r s → R s t → R r t) {act : Service → Node → Service × Node}
    {services : List Service} (each : ∀ s ∈ services, ∀ n : Node, R n.radio (act s n).2.radio)
    (n : Node) : R n.radio (forEach act services n).2.radio := by
  induction services generalizing n with
  | nil => exact refl _
  | cons s rest ih =>
    obtain ⟨first, others⟩ := List.forall_mem_cons.mp each
    exact trans (first n) (ih others _)

namespace Observable

theorem notifyObservers_kept (s : Observable) (r : Radio) (unconditionally : Bool) :
    (s.notifyObservers r unconditionally).1.endpoint = s.endpoint ∧
      (s.notifyObservers r unconditionally).1.pendingRefreshes = s.pendingRefreshes := by
  unfold notifyObservers
  split <;> exact ⟨rfl, rfl⟩

theorem putObserver_kept (s : Observable) (r : Radio) (o : Observer) :
    (s.putObserver r o).1.endpoint = s.endpoint ∧
      (s.putObserver r o).1.pendingRefreshes = s.pendingRefreshes := by
  unfold putObserver
  split <;> exact ⟨rfl, rfl⟩

end Observable

/-! ## Relations kept -/

namespace Radio

/-- A relation from a radio to what becomes of it that every step keeps which edits no table. -/
structure Light (R : Radio → Radio → Prop) : Prop where
  refl (r : Radio) : R r r
  trans {r s t : Radio} (first : R r s) (second : R s t) : R r t
  note (r : Radio) (severity : Severity) (text : String) : R r (r.note severity text)
  transmit (r : Radio) (peer : NodeId) (packet : Message) (activity : Activity) :
    R r (r.transmit peer packet activity).1
  drawId (r : Radio) : R r r.drawId.1

/-- A relation that every elementary step keeps, asking for refreshes apart. -/
structure Steady (R : Radio → Radio → Prop) : Prop extends Light R where
  track (r : Radio) (peer : NodeId) (packet : Message) : R r (r.track peer packet)
  drawToken (r : Radio) : R r r.drawToken.1
  register (r : Radio) (path : String) : R r (r.register path).1
  unregister (r : Radio) (id : RegistrationId) : R r (r.unregister id).1
  storeResponse (r : Radio) (peer : NodeId) (id : MessageId) (response : Message) :
    R r (r.storeResponse peer id response)

def Tolerates (R : Radio → Radio → Prop) (event : TimerEvent) : Prop :=
  ∀ r after, R r (r.schedule after event)

def Permits (R : Radio → Radio → Prop) (registration : Option RegistrationId) : Prop :=
  ∀ id, registration = some id → Tolerates R (.maxAge id)

variable {R : Radio → Radio → Prop}

/-! ## Acknowledging -/

theorem Light.acknowledge (light : Light R) (r : Radio) (m : Received) :
    R r (r.acknowledge m).1 := by
  have offered := light.transmit r m.peer (emptyMessage .acknowledgement m.packet.id)
    (.sending m.packet.id)
  unfold Radio.acknowledge
  split
  · next done => rw [done] at offered; exact offered
  · next failed => rw [failed] at offered; exact offered

theorem Light.addressResponse (light : Light R) (r : Radio) (m : Received) (response : Message) :
    R r (r.addressResponse m response).1 := by
  unfold Radio.addressResponse
  split
  · exact light.refl r
  · exact light.drawId r
  · exact light.drawId r

variable (steady : Steady R)

include steady

/-! ## Sending and answering -/

theorem Steady.send (r : Radio) (peer : NodeId) (packet : Message) :
    R r (r.send peer packet).1 := by
  have offered := steady.transmit r peer packet (.sending packet.id)
  unfold Radio.send
  simp only
  split
  · exact steady.note r _ _
  split
  · next failed => rw [failed] at offered; exact offered
  · next done =>
    rw [done] at offered
    split
    · exact steady.trans offered (steady.track _ peer packet)
    · exact offered

theorem Steady.sendFresh (r : Radio) (peer : NodeId) (packet : Message) :
    R r (r.sendFresh peer packet).1 := by
  have sent := steady.trans (steady.drawId r)
    (steady.send r.drawId.1 peer { packet with id := r.drawId.2 })
  unfold Radio.sendFresh
  simp only
  split
  · next done => rw [done] at sent; exact sent
  · next failed => rw [failed] at sent; exact sent

theorem Steady.sendRequest (r : Radio) (peer : NodeId) (packet : Message) :
    R r (r.sendRequest peer packet).1 := by
  have drawn := steady.drawToken r
  unfold Radio.sendRequest
  simp only
  split
  · exact drawn
  · next packet' _ =>
    have sent := steady.trans drawn (steady.sendFresh r.drawToken.1 peer packet')
    split
    · next done => rw [done] at sent; exact sent
    · next failed => rw [failed] at sent; exact sent

theorem Steady.dispatch (r : Radio) (peer : NodeId) (mode : SendMode) (packet : Message) :
    R r (r.dispatch peer mode packet).1 := by
  cases mode with
  | asIs => exact steady.send r peer packet
  | freshId => exact steady.sendFresh r peer packet
  | request => exact steady.sendRequest r peer packet

theorem Steady.respond (r : Radio) (m : Received) (response : Message) :
    R r (r.respond m response).1 := by
  unfold Radio.respond
  split
  · exact steady.refl r
  · next response' _ =>
    have sent := steady.trans (steady.addressResponse r m response')
      (steady.send (r.addressResponse m response').1 m.peer (r.addressResponse m response').2)
    simp only
    split
    · next failed => rw [failed] at sent; exact sent
    · next done =>
      rw [done] at sent
      exact steady.trans sent (steady.storeResponse _ _ _ _)

theorem Steady.reply (r : Radio) (m : Received) (code : Code) (payload : List UInt8) :
    R r (r.reply m code payload).1 := by
  unfold Radio.reply
  split
  · exact steady.refl r
  · exact steady.respond r m _

/-! ## Endpoints -/

theorem Steady.attach (e : Endpoint) (r : Radio) : R r (e.attach r).2.1 := by
  have registered := steady.register r e.path
  unfold Endpoint.attach
  split
  · exact steady.refl r
  · split
    · next done => rw [done] at registered; exact registered
    · next failed => rw [failed] at registered; exact registered

theorem Steady.createEndpoint (r : Radio) (path : String) (handler : Handler) :
    R r (Endpoint.create r path handler).1 := by
  have attached := steady.attach ⟨path, none, false, handler⟩ r
  unfold Endpoint.create
  split
  · next done => rw [done] at attached; exact attached
  · next failed => rw [failed] at attached; exact attached

theorem Steady.shutdown (e : Endpoint) (r : Radio) : R r (e.shutdown r).2 := by
  unfold Endpoint.shutdown
  split
  · exact steady.refl r
  · exact steady.trans (steady.unregister r _) (steady.note _ _ _)

/-! ## Observable resources -/

theorem Steady.createObservable (r : Radio) (path : String) (handler : Handler)
    (status : Reading) (renderer : Renderer) :
    R r (Observable.create r path handler status renderer).1 := by
  have created := steady.createEndpoint r path handler
  unfold Observable.create
  simp only
  split
  · next failed => rw [failed] at created; exact created
  · next done => rw [done] at created; exact created

theorem Steady.scheduleRefresh (s : Observable) (r : Radio)
    (asks : Permits R s.endpoint.registration) : R r (s.scheduleRefresh r).2 := by
  unfold Observable.scheduleRefresh
  split
  · exact steady.refl r
  · next id current => exact asks id current r _

theorem Steady.sendNotification (s : Observable) (r : Radio) (o : Observer) :
    R r (s.sendNotification r o).1 := by
  unfold Observable.sendNotification
  split
  · exact steady.refl r
  · exact steady.sendFresh r _ _

theorem Steady.notify (s : Observable) (now : Nat) (r : Radio) (o : Observer) :
    R r (s.notify now r o).1 := by
  have sent := steady.sendNotification s r o
  unfold Observable.notify
  split
  · next done => rw [done] at sent; exact sent
  · next failed => rw [failed] at sent; exact steady.trans sent (steady.note _ _ _)

theorem Steady.notifyEach (s : Observable) (now : Nat) (unconditionally : Bool) (r : Radio)
    (observers : List Observer) : R r (s.notifyEach now unconditionally r observers).1 := by
  induction observers generalizing r with
  | nil => exact steady.refl r
  | cons o rest ih =>
    unfold Observable.notifyEach
    split
    · simp only
      split <;> exact steady.trans (steady.notify s now r o) (ih _)
    · exact ih r

theorem Steady.notifyObservers (s : Observable) (r : Radio) (unconditionally : Bool) :
    R r (s.notifyObservers r unconditionally).2.1 := by
  unfold Observable.notifyObservers
  split
  · exact steady.refl r
  · exact steady.notifyEach s _ _ _ _

theorem Steady.setStatus (s : Observable) (r : Radio) (status : Reading)
    (asks : Permits R s.endpoint.registration) : R r (s.setStatus r status).2.1 := by
  have told := steady.notifyObservers { s with status, counter := s.counter + 1 } r false
  have kept := Observable.notifyObservers_kept { s with status, counter := s.counter + 1 } r false
  refine steady.trans told (steady.scheduleRefresh (Observable.notifyObservers _ r false).1 _ ?_)
  rw [kept.1]
  exact asks

theorem Steady.refresh (s : Observable) (r : Radio) (asks : Permits R s.endpoint.registration) :
    R r (s.timerFired r).2 := by
  unfold Observable.timerFired
  simp only
  split
  · exact steady.refl r
  · have told := steady.notifyObservers { s with
      pendingRefreshes := s.pendingRefreshes - 1, counter := s.counter + 1 } r true
    have kept := ({ s with pendingRefreshes := s.pendingRefreshes - 1, counter := s.counter + 1 } :
      Observable).notifyObservers_kept r true
    have next := steady.scheduleRefresh (Observable.notifyObservers { s with
      pendingRefreshes := s.pendingRefreshes - 1, counter := s.counter + 1 } r true).1
    rw [kept.1] at next
    split
    · exact steady.trans told (next _ asks)
    · exact steady.trans told (steady.trans (steady.note _ _ _) (next _ asks))

theorem Steady.forget (s : Observable) (r : Radio) (peer : NodeId) (token : ShortBytes) :
    R r (s.forget r peer token).2 := by
  unfold Observable.forget
  simp only
  split
  · exact steady.refl r
  · exact steady.note r _ _

theorem Steady.forgetNotified (s : Observable) (r : Radio) (peer : NodeId) (id : MessageId) :
    R r (s.forgetNotified r peer id).2.1 := by
  unfold Observable.forgetNotified
  split
  · exact steady.refl r
  · exact steady.forget s _ _ _

theorem Steady.putObserver (s : Observable) (r : Radio) (o : Observer) :
    R r (s.putObserver r o).2 := by
  unfold Observable.putObserver
  split
  · exact steady.refl r
  · exact steady.note r _ _

theorem Steady.replyOrNote (n : Node) (m : Received) (code : Code) (payload : List UInt8) :
    R n.radio (Observable.replyOrNote n m code payload).1.radio := by
  have replied := steady.reply n.radio m code payload
  unfold Observable.replyOrNote
  split
  · next done => rw [done] at replied; exact replied
  · next failed => rw [failed] at replied; exact steady.trans replied (steady.note _ _ _)

theorem Steady.enter (s : Observable) (r : Radio) (o : Observer)
    (asks : Permits R s.endpoint.registration) : R r (s.enter r o).2 := by
  have put := steady.putObserver s r o
  unfold Observable.enter
  simp only
  split
  · exact steady.trans put
      (steady.scheduleRefresh _ _ (by rw [(s.putObserver_kept r o).1]; exact asks))
  · exact put

/-! ## Services -/

theorem Steady.tell (p : Probe) (n : Node) (e : JournalEntry) : R n.radio (p.tell n e).radio := by
  unfold Probe.tell
  split <;> exact steady.refl n.radio

theorem Steady.timerFired (s : Service) (n : Node) (id : RegistrationId)
    (asks : Permits R s.asks) :
    R n.radio (s.timerFired n id).2.radio := by
  cases s with
  | plain e => exact steady.refl _
  | observable s => exact steady.refresh s n.radio asks
  | probe p => exact steady.tell p n _

theorem Steady.peerReset (s : Service) (n : Node) (peer : NodeId) (token : ShortBytes) :
    R n.radio (s.peerReset n peer token).2.radio := by
  cases s with
  | plain e => exact steady.refl _
  | observable s => exact steady.forget s n.radio peer token
  | probe p => exact steady.tell p n _

theorem Steady.unmatchedReset (s : Service) (n : Node) (peer : NodeId) (id : MessageId) :
    R n.radio (s.unmatchedReset n peer id).2.1.radio := by
  cases s with
  | plain e => exact steady.refl _
  | observable s => exact steady.forgetNotified s n.radio peer id
  | probe p => exact steady.tell p n _

theorem Steady.expired (s : Service) (n : Node) (peer : NodeId) (token : ShortBytes) :
    R n.radio (s.expired n peer token).2.radio := by
  cases s with
  | plain e => exact steady.refl _
  | observable s => exact steady.forget s n.radio peer token
  | probe p => exact steady.tell p n _

theorem Steady.forEach {act : Service → Node → Service × Node} {services : List Service}
    (each : ∀ s ∈ services, ∀ n : Node, R n.radio (act s n).2.radio) (n : Node) :
    R n.radio (Service.forEach act services n).2.radio :=
  Service.forEach_related steady.refl steady.trans each n

theorem Steady.create (r : Radio) (spec : ServiceSpec) : R r (Service.create r spec).1 := by
  cases spec with
  | plain path handler => exact steady.createEndpoint r path handler
  | observable path handler status renderer =>
    exact steady.createObservable r path handler status renderer
  | probe p => exact steady.refl r

theorem Steady.callEndpoint {s s' : Service} {e : Endpoint} {r r' : Radio} {call : ServiceCall}
    {result : StepResult} (called : s.callEndpoint e r call = some (s', r', result)) : R r r' := by
  cases call with
  | shutdown =>
    cases s with
    | observable o => cases called; exact steady.shutdown o.endpoint r
    | plain _ => cases called; exact steady.shutdown e r
    | probe _ => cases called; exact steady.shutdown e r
  | register => cases called; exact steady.attach e r
  | path | registration | setSubresources | accepts | inspect => cases called; exact steady.refl r
  | status | setStatus | maxAge | setMaxAge | setConfirmable | observerCount | due => cases called

theorem Steady.call (s : Service) (r : Radio) (call : ServiceCall) (asks : Permits R s.asks) :
    R r (s.call r call).2.1 := by
  unfold Service.call
  split
  · exact steady.refl r
  · split
    · next answer called => exact steady.callEndpoint called
    · cases s with
      | observable o =>
        cases call with
        | setStatus v => exact steady.setStatus o r v asks
        | _ => exact steady.refl r
      | plain _ => exact steady.refl r
      | probe _ => exact steady.refl r

omit steady

/-- The second radio is what services can make of the first without asking for anything. -/
def Leads (r s : Radio) : Prop := ∀ R : Radio → Radio → Prop, Steady R → R r s

theorem Leads.refl (r : Radio) : r.Leads r := fun _ steady => steady.refl r

theorem Leads.trans {r s t : Radio} (h : r.Leads s) (h' : s.Leads t) : r.Leads t :=
  fun R steady => steady.trans (h R steady) (h' R steady)

theorem note_leads (r : Radio) (severity : Severity) (text : String) :
    r.Leads (r.note severity text) := fun _ steady => steady.note r severity text

theorem respond_leads (r : Radio) (m : Received) (response : Message) :
    r.Leads (r.respond m response).1 := fun _ steady => steady.respond r m response

end Radio

/-! ## Handlers -/

namespace Node

/-- Handlers wrote down what they did, and what they asked for decides whether the relation holds
between the radios. -/
structure Binds (R : Radio → Radio → Prop) (n n' : Node) : Prop where
  wrote : n.journal <+: n'.journal
  related : (∀ event ∈ n'.askedSince n, Radio.Tolerates R event) → R n.radio n'.radio

variable {R : Radio → Radio → Prop} {n n' n'' : Node} {r : Radio}

theorem binds_of_radio (h : R n.radio r) : Binds R n { n with radio := r } :=
  ⟨List.prefix_refl _, fun _ => h⟩

theorem askedSince_trans (wrote : n.journal <+: n'.journal) (wrote' : n'.journal <+: n''.journal) :
    n''.askedSince n = n'.askedSince n ++ n''.askedSince n' := by
  simp only [askedSince, written_trans wrote wrote', List.filterMap_append]

end Node

open Node

section

variable {R : Radio → Radio → Prop} (steady : Radio.Steady R) {n n' n'' : Node}

include steady

theorem Node.Binds.refl (n : Node) : Binds R n n := binds_of_radio (steady.refl n.radio)

theorem Node.Binds.trans (h : Binds R n n') (h' : Binds R n' n'') : Binds R n n'' := by
  refine ⟨h.wrote.trans h'.wrote, fun tolerates => ?_⟩
  rw [askedSince_trans h.wrote h'.wrote] at tolerates
  obtain ⟨first, second⟩ := List.forall_mem_append.mp tolerates
  exact steady.trans (h.related first) (h'.related second)

theorem Node.record_binds (n : Node) (e : JournalEntry) : Binds R n (n.record e) :=
  ⟨List.prefix_append _ _, fun _ => steady.refl _⟩

namespace Radio

/-- An action keeps the relation if it does not ask for an event that the relation does not
tolerate. -/
theorem Steady.perform (a : Action) (n : Node) (m : Received)
    (tolerates : ∀ event ∈ a.asked?, Tolerates R event) :
    R n.radio (a.perform n m).1.radio := by
  cases a with
  | reply code payload => exact steady.reply n.radio m code payload
  | respond packet => exact steady.respond n.radio m packet
  | acknowledge =>
    have offered := steady.acknowledge n.radio m
    simp only [Action.perform]
    generalize n.radio.acknowledge m = done at offered ⊢
    exact offered
  | echoPath =>
    simp only [Action.perform]
    split
    · exact steady.reply n.radio m _ _
    · exact steady.refl _
  | markAcknowledged | markAnswered | unmark | rewrite | stash => exact steady.refl _
  | send peer mode packet => exact steady.dispatch n.radio peer mode packet
  | register path => exact steady.register n.radio path
  | unregister id => exact steady.unregister n.radio id
  | schedule after event => exact tolerates event rfl n.radio after
  | drawId => exact steady.drawId n.radio
  | drawToken => exact steady.drawToken n.radio

theorem Steady.performAll (actions : List Action) (n : Node) (m : Received) :
    Binds R n (Action.performAll actions n m).1 := by
  induction actions generalizing n m with
  | nil => exact Binds.refl steady n
  | cons a rest ih =>
    rw [Action.performAll_cons]
    have first : Binds R n ((a.perform n m).1.record (.acted a (a.perform n m).2.2
        (a.perform n m).2.1.acknowledged (a.perform n m).2.1.answered)) := by
      refine ⟨?_, fun tolerates => steady.perform a n m ?_⟩
      · rw [record, a.perform_journal]
        exact List.prefix_append _ _
      · rw [a.acted_asked] at tolerates
        exact fun event asked => tolerates event (Option.mem_toList.mpr asked)
    exact first.trans steady (ih _ _)

theorem Steady.handle (e : Endpoint) (n : Node) (m : Received) : Binds R n (e.handle n m).1 :=
  Binds.trans steady (record_binds steady n (.handled e.path m.peer m.packet.id))
    (steady.performAll _ _ m)

theorem Steady.registerObserver (s : Observable) (n : Node) (m : Received)
    (conditions : List Condition) (asks : Permits R s.endpoint.registration) :
    Binds R n (s.registerObserver n m conditions).2.1 := by
  have admits := s.registerObserver_admits n m conditions
  generalize s.registerObserver n m conditions = outcome at admits ⊢
  cases admits with
  | unclocked | unbuilt => exact Binds.refl steady n
  | full => exact steady.handle s.endpoint n m
  | @unsent _ packet _ _ _ _ _ failed =>
    have answered := steady.respond n.radio m packet
    rw [failed] at answered
    exact binds_of_radio answered
  | @entered _ packet _ _ _ _ _ done =>
    have answered := steady.respond n.radio m packet
    rw [done] at answered
    exact binds_of_radio (steady.trans answered (steady.enter s _ _ asks))

theorem Steady.stopObserving (s : Observable) (n : Node) (m : Received) :
    Binds R n (s.stopObserving n m).2.1 := by
  unfold Observable.stopObserving
  simp only
  split
  · exact steady.handle s.endpoint n m
  · exact Binds.trans steady (binds_of_radio (steady.note n.radio .debug _))
      (steady.handle s.endpoint (n.note .debug (toString m.peer ++ " stopped observing")) m)

theorem Steady.replyOrNote_binds (n : Node) (m : Received) (code : Code) (payload : List UInt8) :
    Binds R n (Observable.replyOrNote n m code payload).1 := by
  have replied := steady.replyOrNote n m code payload
  unfold Observable.replyOrNote at replied ⊢
  split
  · next done => rw [done] at replied; exact binds_of_radio replied
  · next failed => rw [failed] at replied; exact binds_of_radio replied

theorem Steady.note_binds (n : Node) (severity : Severity) (text : String) :
    Binds R n (n.note severity text) := binds_of_radio (steady.note n.radio severity text)

theorem Steady.afterFailure (s : Observable) (peer : NodeId) (n : Node) (m : Received)
    (e : RuntimeError) : Binds R n (s.afterFailure peer n m e).2.1 := by
  have noted := steady.note_binds n .warn
    ("could not register observer " ++ toString peer ++ ": " ++ e.inspect)
  unfold Observable.afterFailure
  simp only
  split
  · exact noted.trans steady (steady.replyOrNote_binds _ m _ _)
  · exact noted

theorem Steady.receiveGet (s : Observable) (n : Node) (m : Received)
    (asks : Permits R s.endpoint.registration) : Binds R n (s.receiveGet n m).2.1 := by
  have gets := s.receiveGet_gets n m
  generalize s.receiveGet n m = left at gets ⊢
  cases gets with
  | refused => exact (steady.note_binds n _ _).trans steady (steady.replyOrNote_binds _ m _ _)
  | stopped => exact steady.stopObserving s n m
  | @wanted conditions =>
    have registered := steady.registerObserver s n m conditions asks
    generalize s.registerObserver n m conditions = outcome at registered ⊢
    obtain ⟨s', n', m', e | _⟩ := outcome
    · exact registered.trans steady (steady.afterFailure s' m.peer n' m' e)
    · exact registered

theorem Steady.offerObservable (s : Observable) (n : Node) (m : Received)
    (asks : Permits R s.endpoint.registration) : Binds R n (s.offer n m).2.1 := by
  unfold Observable.offer
  split
  · exact Binds.refl steady n
  · split
    · exact steady.receiveGet s n m asks
    · exact steady.handle s.endpoint n m

theorem Steady.offer (s : Service) (n : Node) (m : Received) (asks : Permits R s.asks) :
    Binds R n (s.offer n m).2.1 := by
  cases s with
  | plain e =>
    unfold Service.offer
    simp only
    split
    · exact steady.handle e n m
    · exact Binds.refl steady n
  | observable s => exact steady.offerObservable s n m asks
  | probe p =>
    exact Binds.trans steady (record_binds steady n (.offered m.peer m.packet.id))
      (steady.performAll _ _ m)

end Radio

end

namespace Node

def Leads (n n' : Node) : Prop := ∀ R : Radio → Radio → Prop, Radio.Steady R → Binds R n n'

variable {n n' n'' : Node}

theorem Leads.refl (n : Node) : n.Leads n := fun _ steady => Binds.refl steady n

theorem Leads.trans (h : n.Leads n') (h' : n'.Leads n'') : n.Leads n'' :=
  fun R steady => Binds.trans steady (h R steady) (h' R steady)

theorem leads_of_radio {r : Radio} (leads : n.radio.Leads r) : n.Leads { n with radio := r } :=
  fun R steady => binds_of_radio (leads R steady)

theorem note_leads (n : Node) (severity : Severity) (text : String) :
    n.Leads (n.note severity text) := leads_of_radio (n.radio.note_leads severity text)

end Node

theorem Endpoint.handle_leads (e : Endpoint) (n : Node) (m : Received) :
    n.Leads (e.handle n m).1 := fun _ steady => steady.handle e n m

theorem Observable.stopObserving_leads (s : Observable) (n : Node) (m : Received) :
    n.Leads (s.stopObserving n m).2.1 := fun _ steady => steady.stopObserving s n m

end CoapNode
