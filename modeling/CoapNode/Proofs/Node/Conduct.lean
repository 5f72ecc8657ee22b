import CoapNode.Session
import CoapNode.Proofs.Observe.Admission
import CoapNode.Proofs.Radio.Exchange
/-! Handlers and services keep to the conduct that a radio allows for a message in their hands,
and write down every deed of it. When no message is in their hands they only send. -/
namespace CoapNode

namespace Node

/-- Services had the message in their hands, and wrote down what they did with it. -/
def Serves (n : Node) (m : Received) (n' : Node) (m' : Received) : Prop :=
  ∃ entries, n'.journal = n.journal ++ entries ∧ entries.filterMap (·.expired?) = [] ∧
    Radio.Conduct n.radio m (entries.filterMap (·.deed?)) n'.radio m'

/-- Services were told something; they wrote down no expiry, and asked for nothing. -/
def Tends (n n' : Node) : Prop :=
  ∃ entries, n'.journal = n.journal ++ entries ∧
    (∀ e ∈ entries, e.expired? = none ∧ e.asked? = none) ∧ n.radio.Sends n'.radio

variable {n n' n'' : Node} {m m' m'' : Received} {r : Radio}

theorem serves_of_radio (h : Radio.Conduct n.radio m [] r m') :
    n.Serves m { n with radio := r } m' := ⟨[], (List.append_nil _).symm, rfl, h⟩

theorem Serves.refl (n : Node) (m : Received) : n.Serves m n m :=
  serves_of_radio (Radio.Conduct.refl n.radio m)

theorem Serves.trans (h : n.Serves m n' m') (h' : n'.Serves m' n'' m'') : n.Serves m n'' m'' := by
  obtain ⟨entries, journal, unexpired, conduct⟩ := h
  obtain ⟨entries', journal', unexpired', conduct'⟩ := h'
  refine ⟨entries ++ entries', by rw [journal', journal, List.append_assoc], ?_, ?_⟩
  · rw [List.filterMap_append, unexpired, unexpired', List.append_nil]
  · rw [List.filterMap_append]
    exact conduct.trans conduct'

theorem Serves.wrote (h : n.Serves m n' m') : n.journal <+: n'.journal := by
  obtain ⟨entries, journal, -⟩ := h
  exact ⟨entries, journal.symm⟩

theorem note_serves (n : Node) (m : Received) (severity : Severity) (text : String) :
    n.Serves m (n.note severity text) m :=
  serves_of_radio (.idle (n.radio.note_idle severity text))

theorem record_serves (n : Node) (m : Received) {e : JournalEntry} (unexpired : e.expired? = none)
    (deedless : e.deed? = none) : n.Serves m (n.record e) m := by
  refine ⟨[e], rfl, by simp [unexpired], ?_⟩
  simp only [List.filterMap_cons, deedless]
  exact Radio.Conduct.refl n.radio m

theorem tends_of_radio (h : n.radio.Sends r) : n.Tends { n with radio := r } :=
  ⟨[], (List.append_nil _).symm, by simp, h⟩

theorem Tends.refl (n : Node) : n.Tends n := tends_of_radio (Radio.Sends.refl n.radio)

theorem Tends.trans (h : n.Tends n') (h' : n'.Tends n'') : n.Tends n'' := by
  obtain ⟨entries, journal, plain, sends⟩ := h
  obtain ⟨entries', journal', plain', sends'⟩ := h'
  refine ⟨entries ++ entries', by rw [journal', journal, List.append_assoc], ?_, sends.trans sends'⟩
  intro e member
  exact (List.mem_append.mp member).elim (plain e) (plain' e)

theorem Tends.sends (h : n.Tends n') : n.radio.Sends n'.radio := by
  obtain ⟨_, -, -, sends⟩ := h
  exact sends

theorem note_tends (n : Node) (severity : Severity) (text : String) :
    n.Tends (n.note severity text) := tends_of_radio (.idle (n.radio.note_idle severity text))

theorem record_tends (n : Node) {e : JournalEntry} (plain : e.expired? = none ∧ e.asked? = none) :
    n.Tends (n.record e) := ⟨[e], rfl, by simp [plain], Radio.Sends.refl n.radio⟩

end Node

open Node

/-! ## Handlers -/

theorem Action.perform_conduct (a : Action) (n : Node) (m : Received)
    (acknowledged answered : Bool) : Radio.Conduct n.radio m
      (JournalEntry.acted a (a.perform n m).2.2 acknowledged answered).deed?.toList
      (a.perform n m).1.radio (a.perform n m).2.1 := by
  cases a with
  | reply code payload => exact .reply n.radio m code payload
  | respond packet => exact .respond n.radio m packet
  | acknowledge =>
    have conduct := Radio.Conduct.acknowledge n.radio m
    simp only [Action.perform]
    generalize n.radio.acknowledge m = done at conduct ⊢
    exact conduct
  | echoPath =>
    simp only [Action.perform]
    split
    · exact .reply n.radio m _ _
    · exact .refl n.radio m
  | markAcknowledged => exact .mark n.radio m
  | markAnswered => exact .markAnswered n.radio m
  | unmark => exact .unmark n.radio m
  | rewrite packet peer => exact .rewrite n.radio m packet peer
  | stash => exact .refl n.radio m
  | send peer mode packet => exact .send n.radio m peer mode packet
  | register path => exact .idle (n.radio.register_idle path)
  | unregister id => exact .idle (n.radio.unregister_idle id)
  | schedule after event => exact .schedule n.radio m after event
  | drawId => exact .idle n.radio.drawId_idle
  | drawToken => exact .idle n.radio.drawToken_idle

theorem Action.acted_serves (a : Action) (n : Node) (m : Received) (acknowledged answered : Bool) :
    n.Serves m
      ((a.perform n m).1.record (.acted a (a.perform n m).2.2 acknowledged answered))
      (a.perform n m).2.1 := by
  have conduct := a.perform_conduct n m acknowledged answered
  refine ⟨[.acted a (a.perform n m).2.2 acknowledged answered], ?_, rfl, ?_⟩
  · rw [record, a.perform_journal]
  · rw [List.filterMap_cons, List.filterMap_nil]
    cases deed : (JournalEntry.acted a (a.perform n m).2.2 acknowledged answered).deed? with
    | none => rw [deed] at conduct; exact conduct
    | some d => rw [deed] at conduct; exact conduct

theorem Action.performAll_serves (actions : List Action) (n : Node) (m : Received) :
    n.Serves m (performAll actions n m).1 (performAll actions n m).2 := by
  induction actions generalizing n m with
  | nil => exact Serves.refl n m
  | cons a rest ih => exact (a.acted_serves n m _ _).trans (ih _ _)

theorem Endpoint.handle_serves (e : Endpoint) (n : Node) (m : Received) :
    n.Serves m (e.handle n m).1 (e.handle n m).2 :=
  (record_serves n m rfl rfl).trans (Action.performAll_serves _ _ _)

theorem Endpoint.attach_idle (e : Endpoint) (r : Radio) : r.Idle (e.attach r).2.1 := by
  have idle := r.register_idle e.path
  unfold Endpoint.attach
  split
  · exact Radio.Idle.refl r
  · split
    · next done => rw [done] at idle; exact idle
    · next failed => rw [failed] at idle; exact idle

theorem Endpoint.create_idle (r : Radio) (path : String) (handler : Handler) :
    r.Idle (Endpoint.create r path handler).1 := by
  have idle := Endpoint.attach_idle ⟨path, none, false, handler⟩ r
  unfold Endpoint.create
  split
  · next done => rw [done] at idle; exact idle
  · next failed => rw [failed] at idle; exact idle

theorem Endpoint.shutdown_idle (e : Endpoint) (r : Radio) : r.Idle (e.shutdown r).2 := by
  unfold Endpoint.shutdown
  split
  · exact Radio.Idle.refl r
  · exact (r.unregister_idle _).trans (Radio.note_idle _ _ _)

/-! ## Observable resources -/

namespace Observable

theorem create_idle (r : Radio) (path : String) (handler : Handler) (status : Reading)
    (renderer : Renderer) : r.Idle (Observable.create r path handler status renderer).1 := by
  have idle := Endpoint.create_idle r path handler
  unfold Observable.create
  simp only
  split
  · next failed => rw [failed] at idle; exact idle
  · next done => rw [done] at idle; exact idle

theorem scheduleRefresh_idle (s : Observable) (r : Radio) : r.Idle (s.scheduleRefresh r).2 := by
  unfold scheduleRefresh
  split
  · exact Radio.Idle.refl r
  · exact r.schedule_idle _ _

theorem sendNotification_sends (s : Observable) (r : Radio) (o : Observer) :
    r.Sends (s.sendNotification r o).1 := by
  unfold sendNotification
  split
  · exact .refl r
  · exact .fresh r _ _

theorem notify_sends (s : Observable) (now : Nat) (r : Radio) (o : Observer) :
    r.Sends (s.notify now r o).1 := by
  have sends := s.sendNotification_sends r o
  unfold notify
  split
  · next done => rw [done] at sends; exact sends
  · next failed =>
    rw [failed] at sends
    exact sends.trans (.idle (Radio.note_idle _ _ _))

theorem notifyEach_sends (s : Observable) (now : Nat) (unconditionally : Bool) (r : Radio)
    (observers : List Observer) :
    r.Sends (s.notifyEach now unconditionally r observers).1 := by
  induction observers generalizing r with
  | nil => exact .refl r
  | cons o rest ih =>
    unfold notifyEach
    split
    · simp only
      split <;> exact (s.notify_sends now r o).trans (ih _)
    · exact ih r

theorem notifyObservers_sends (s : Observable) (r : Radio) (unconditionally : Bool) :
    r.Sends (s.notifyObservers r unconditionally).2.1 := by
  unfold notifyObservers
  split
  · exact .refl r
  · exact s.notifyEach_sends _ _ _ _

theorem setStatus_sends (s : Observable) (r : Radio) (status : Reading) :
    r.Sends (s.setStatus r status).2.1 :=
  (notifyObservers_sends _ r false).trans (.idle (scheduleRefresh_idle _ _))

theorem timerFired_sends (s : Observable) (r : Radio) : r.Sends (s.timerFired r).2 := by
  unfold timerFired
  simp only
  split
  · exact .refl r
  · have sends := notifyObservers_sends { s with
      pendingRefreshes := s.pendingRefreshes - 1, counter := s.counter + 1 } r true
    split
    · exact sends.trans (.idle (scheduleRefresh_idle _ _))
    · exact sends.trans (.idle ((Radio.note_idle _ _ _).trans (scheduleRefresh_idle _ _)))

theorem forget_idle (s : Observable) (r : Radio) (peer : NodeId) (token : ShortBytes) :
    r.Idle (s.forget r peer token).2 := by
  unfold forget
  simp only
  split
  · exact Radio.Idle.refl r
  · exact r.note_idle _ _

theorem forgetNotified_idle (s : Observable) (r : Radio) (peer : NodeId) (id : MessageId) :
    r.Idle (s.forgetNotified r peer id).2.1 := by
  unfold forgetNotified
  split
  · exact Radio.Idle.refl r
  · exact s.forget_idle _ _ _

theorem putObserver_idle (s : Observable) (r : Radio) (o : Observer) :
    r.Idle (s.putObserver r o).2 := by
  unfold putObserver
  split
  · exact Radio.Idle.refl r
  · exact r.note_idle _ _

theorem replyOrNote_serves (n : Node) (m : Received) (code : Code) (payload : List UInt8) :
    n.Serves m (replyOrNote n m code payload).1 (replyOrNote n m code payload).2 := by
  have conduct := Radio.Conduct.reply n.radio m code payload
  unfold replyOrNote
  split
  · next done =>
    rw [done] at conduct
    exact serves_of_radio conduct
  · next failed =>
    rw [failed] at conduct
    exact serves_of_radio (conduct.trans (.idle (Radio.note_idle _ _ _)))

theorem enter_idle (s : Observable) (r : Radio) (o : Observer) : r.Idle (s.enter r o).2 := by
  have put := s.putObserver_idle r o
  unfold enter
  simp only
  split
  · exact put.trans (scheduleRefresh_idle _ _)
  · exact put

theorem registerObserver_serves (s : Observable) (n : Node) (m : Received)
    (conditions : List Condition) :
    n.Serves m (s.registerObserver n m conditions).2.1
      (s.registerObserver n m conditions).2.2.1 := by
  have admits := s.registerObserver_admits n m conditions
  generalize s.registerObserver n m conditions = outcome at admits ⊢
  cases admits with
  | unclocked | unbuilt => exact Serves.refl n m
  | full => exact s.endpoint.handle_serves n m
  | @unsent _ packet _ _ _ _ _ failed =>
    have conduct := Radio.Conduct.respond n.radio m packet
    rw [failed] at conduct
    exact serves_of_radio conduct
  | @entered _ packet _ _ _ _ _ done =>
    have conduct := Radio.Conduct.respond n.radio m packet
    rw [done] at conduct
    exact serves_of_radio (conduct.trans (.idle (s.enter_idle _ _)))

theorem stopObserving_serves (s : Observable) (n : Node) (m : Received) :
    n.Serves m (s.stopObserving n m).2.1 (s.stopObserving n m).2.2 := by
  unfold stopObserving
  simp only
  split
  · exact s.endpoint.handle_serves n m
  · exact (n.note_serves m _ _).trans (s.endpoint.handle_serves _ m)

theorem afterFailure_serves (s : Observable) (peer : NodeId) (n : Node) (m : Received)
    (e : RuntimeError) :
    n.Serves m (s.afterFailure peer n m e).2.1 (s.afterFailure peer n m e).2.2 := by
  unfold afterFailure
  simp only
  split
  · exact (n.note_serves m _ _).trans (replyOrNote_serves _ _ _ _)
  · exact n.note_serves m _ _

theorem receiveGet_serves (s : Observable) (n : Node) (m : Received) :
    n.Serves m (s.receiveGet n m).2.1 (s.receiveGet n m).2.2 := by
  have gets := s.receiveGet_gets n m
  generalize s.receiveGet n m = left at gets ⊢
  cases gets with
  | refused => exact (n.note_serves m _ _).trans (replyOrNote_serves _ _ _ _)
  | stopped => exact s.stopObserving_serves n m
  | @wanted conditions =>
    have serves := s.registerObserver_serves n m conditions
    generalize s.registerObserver n m conditions = outcome at serves ⊢
    obtain ⟨s', n', m', e | _⟩ := outcome
    · exact serves.trans (s'.afterFailure_serves m.peer n' m' e)
    · exact serves

theorem offer_serves (s : Observable) (n : Node) (m : Received) :
    n.Serves m (s.offer n m).2.1 (s.offer n m).2.2.1 := by
  unfold offer
  split
  · exact Serves.refl n m
  · split
    · exact s.receiveGet_serves n m
    · exact s.endpoint.handle_serves n m

end Observable

/-! ## Services -/

theorem Probe.tell_tends (p : Probe) (n : Node) {e : JournalEntry}
    (plain : e.expired? = none ∧ e.asked? = none) : n.Tends (p.tell n e) := by
  unfold Probe.tell
  split
  · exact record_tends n plain
  · exact Tends.refl n

namespace Service

theorem offer_serves (s : Service) (n : Node) (m : Received) :
    n.Serves m (s.offer n m).2.1 (s.offer n m).2.2.1 := by
  cases s with
  | plain e =>
    unfold offer
    simp only
    split
    · exact e.handle_serves n m
    · exact Serves.refl n m
  | observable s => exact s.offer_serves n m
  | probe p => exact (record_serves n m rfl rfl).trans (Action.performAll_serves _ _ _)

theorem timerFired_tends (s : Service) (n : Node) (id : RegistrationId) :
    n.Tends (s.timerFired n id).2 := by
  cases s with
  | plain e => exact Tends.refl n
  | observable s => exact tends_of_radio (s.timerFired_sends n.radio)
  | probe p => exact p.tell_tends n ⟨rfl, rfl⟩

theorem timerFires_tends (s : Service) (n : Node) (id : RegistrationId) :
    n.Tends (if s.registration = some id then s.timerFired n id else (s, n)).2 := by
  split
  · exact s.timerFired_tends n id
  · exact Tends.refl n

theorem expired_idle (s : Service) (n : Node) (peer : NodeId) (token : ShortBytes) :
    n.radio.Idle (s.expired n peer token).2.radio := by
  cases s with
  | plain e => exact Radio.Idle.refl _
  | observable s => exact s.forget_idle n.radio peer token
  | probe p =>
    simp only [Service.expired, Probe.tell]
    split <;> exact Radio.Idle.refl _

theorem peerReset_idle (s : Service) (n : Node) (peer : NodeId) (token : ShortBytes) :
    n.radio.Idle (s.peerReset n peer token).2.radio := by
  cases s with
  | plain e => exact Radio.Idle.refl _
  | observable s => exact s.forget_idle n.radio peer token
  | probe p =>
    simp only [Service.peerReset, Probe.tell]
    split <;> exact Radio.Idle.refl _

theorem unmatchedReset_idle (s : Service) (n : Node) (peer : NodeId) (id : MessageId) :
    n.radio.Idle (s.unmatchedReset n peer id).2.1.radio := by
  cases s with
  | plain e => exact Radio.Idle.refl _
  | observable s => exact s.forgetNotified_idle n.radio peer id
  | probe p =>
    simp only [Service.unmatchedReset, Probe.tell]
    split <;> exact Radio.Idle.refl _

theorem peerReset_tends (s : Service) (n : Node) (peer : NodeId) (token : ShortBytes) :
    n.Tends (s.peerReset n peer token).2 := by
  cases s with
  | plain e => exact Tends.refl n
  | observable s => exact tends_of_radio (.idle (s.forget_idle n.radio peer token))
  | probe p => exact p.tell_tends n ⟨rfl, rfl⟩

theorem unmatchedReset_tends (s : Service) (n : Node) (peer : NodeId) (id : MessageId) :
    n.Tends (s.unmatchedReset n peer id).2.1 := by
  cases s with
  | plain e => exact Tends.refl n
  | observable s => exact tends_of_radio (.idle (s.forgetNotified_idle n.radio peer id))
  | probe p => exact p.tell_tends n ⟨rfl, rfl⟩

theorem forEach_sends {act : Service → Node → Service × Node}
    (each : ∀ (s : Service) (n : Node), n.radio.Sends (act s n).2.radio)
    (services : List Service) (n : Node) : n.radio.Sends (forEach act services n).2.radio := by
  induction services generalizing n with
  | nil => exact Radio.Sends.refl _
  | cons s rest ih => exact (each s n).trans (ih _)

theorem forEach_tends {act : Service → Node → Service × Node}
    (each : ∀ (s : Service) (n : Node), n.Tends (act s n).2) (services : List Service) (n : Node) :
    n.Tends (forEach act services n).2 := by
  induction services generalizing n with
  | nil => exact Tends.refl n
  | cons s rest ih => exact (each s n).trans (ih _)

end Service

namespace Node

theorem askUnmatched_idle (n : Node) (peer : NodeId) (id : MessageId) (services : List Service) :
    n.radio.Idle (n.askUnmatched peer id services).1.radio := by
  induction services generalizing n with
  | nil => exact Radio.Idle.refl _
  | cons s rest ih => exact (s.unmatchedReset_idle n peer id).trans (ih _)

theorem askUnmatched_tends (n : Node) (peer : NodeId) (id : MessageId) (services : List Service) :
    n.Tends (n.askUnmatched peer id services).1 := by
  induction services generalizing n with
  | nil => exact Tends.refl n
  | cons s rest ih => exact (s.unmatchedReset_tends n peer id).trans (ih _)

theorem offerRequest_serves (n : Node) (m : Received) (services : List Service) :
    n.Serves m (n.offerRequest m services).1 (n.offerRequest m services).2.1 := by
  induction services generalizing n m with
  | nil => exact Serves.refl n m
  | cons s rest ih =>
    unfold offerRequest
    split
    · simp only
      split
      · exact s.offer_serves n m
      · exact (s.offer_serves n m).trans (ih _ _)
    · exact ih n m

theorem answerUntaken_serves (n : Node) (request : Message) (m : Received) (taken : Bool) :
    n.Serves m (n.answerUntaken request m taken).1 (n.answerUntaken request m taken).2.1 := by
  unfold answerUntaken
  split
  · exact Serves.refl n m
  · exact (n.note_serves m _ _).trans (serves_of_radio (Radio.Conduct.reply _ m _ _))

theorem finishRequest_conduct (n : Node) (request : Message) (m : Received) :
    ∃ deeds m', Radio.Conduct n.radio m deeds (n.finishRequest request m).1.radio m' ∧
      ∀ deed ∈ deeds, deed = .acknowledged := by
  have conduct := Radio.Conduct.acknowledge n.radio m
  simp only [finishRequest]
  split
  · split
    · next done => rw [done] at conduct; exact ⟨_, _, conduct, by simp⟩
    · next failed => rw [failed] at conduct; exact ⟨_, _, conduct, by simp⟩
  · exact ⟨_, _, .refl n.radio m, by simp⟩

theorem finishRequest_journal (n : Node) (request : Message) (m : Received) :
    (n.finishRequest request m).1.journal = n.journal := by
  simp only [finishRequest]
  split
  · split <;> rfl
  · rfl

/-- The services have the request first; unless that fails, the node finishes it. -/
theorem receiveRequest_cases (n : Node) (m : Received) (services : List Service) :
    ∃ n' m', n.Serves m n' m' ∧
      ((n.receiveRequest m services).1 = n' ∧ (∃ e, (n.receiveRequest m services).2.2 = .error e) ∨
        (n.receiveRequest m services).1 = (n'.finishRequest m.packet m').1 ∧
          (n.receiveRequest m services).2.2 = (n'.finishRequest m.packet m').2) := by
  have serves := (n.offerRequest_serves m services).trans
    (answerUntaken_serves _ m.packet _ (n.offerRequest m services).2.2.2)
  refine ⟨_, _, serves, ?_⟩
  simp only [receiveRequest]
  split
  · next failed =>
    rw [failed]
    exact .inl ⟨rfl, _, rfl⟩
  · next done =>
    rw [done]
    exact .inr ⟨rfl, rfl⟩

/-- Whatever else was done than acknowledging at the end, handlers wrote down. -/
theorem receiveRequest_conduct (n : Node) (m : Received) (services : List Service) :
    let n' := (n.receiveRequest m services).1
    ∃ deeds m', Radio.Conduct n.radio m deeds n'.radio m' ∧
      ∀ deed ∈ deeds, deed ∈ n'.deedsSince n ∨ deed = .acknowledged := by
  obtain ⟨mid, m', ⟨entries, journal, -, conduct⟩, outcome⟩ := n.receiveRequest_cases m services
  intro n'
  have written : n'.deedsSince n = entries.filterMap (·.deed?) := by
    rcases outcome with ⟨node, -⟩ | ⟨node, -⟩ <;>
      simp only [deedsSince, n', node, finishRequest_journal, journal, List.drop_left]
  rw [written]
  rcases outcome with ⟨node, -⟩ | ⟨node, -⟩
  · exact ⟨_, _, by simpa only [n', node] using conduct, fun deed member => .inl member⟩
  · obtain ⟨deeds, _, last, own⟩ := mid.finishRequest_conduct m.packet m'
    refine ⟨_, _, by simpa only [n', node] using conduct.trans last, fun deed member => ?_⟩
    exact (List.mem_append.mp member).imp_right (own deed)

theorem receivePing_passes (n : Node) (peer : NodeId) (packet : Message) :
    ∃ taken, n.radio.Passes (n.receivePing peer packet).1.radio peer
      (emptyMessage .reset packet.id) taken := by
  have passes := n.radio.transmit_passes peer (emptyMessage .reset packet.id) .receiving
  simp only [receivePing]
  split
  · split
    · next done => rw [done] at passes; exact ⟨_, passes⟩
    · next failed => rw [failed] at passes; exact ⟨_, passes⟩
  · exact ⟨false, (Radio.Idle.refl n.radio).passes _ _⟩

theorem receiveResponse_conduct (n : Node) (m : Received) :
    ∃ deeds m', Radio.Conduct n.radio m deeds (n.receiveResponse m).1.radio m' ∧
      ∀ deed ∈ deeds, deed = .acknowledged := by
  have conduct := Radio.Conduct.acknowledge n.radio m
  simp only [receiveResponse]
  split
  · split
    · next done => rw [done] at conduct; exact ⟨_, _, conduct, by simp⟩
    · next failed => rw [failed] at conduct; exact ⟨_, _, conduct, by simp⟩
  · exact ⟨_, _, .refl n.radio m, by simp⟩

end Node

/-! ## Calls -/

theorem Service.create_idle (r : Radio) (spec : ServiceSpec) :
    r.Idle (Service.create r spec).1 := by
  cases spec with
  | plain path handler => exact Endpoint.create_idle r path handler
  | observable path handler status renderer =>
    exact Observable.create_idle r path handler status renderer
  | probe p => exact Radio.Idle.refl r

theorem Service.callEndpoint_idle {s s' : Service} {e : Endpoint} {r r' : Radio}
    {call : ServiceCall} {result : StepResult}
    (called : s.callEndpoint e r call = some (s', r', result)) : r.Idle r' := by
  cases call with
  | shutdown =>
    cases s with
    | observable o =>
      cases called
      exact o.endpoint.shutdown_idle r
    | plain _ => cases called; exact e.shutdown_idle r
    | probe _ => cases called; exact e.shutdown_idle r
  | register => cases called; exact e.attach_idle r
  | path | registration | setSubresources | accepts | inspect =>
    cases called; exact Radio.Idle.refl r
  | status | setStatus | maxAge | setMaxAge | setConfirmable | observerCount | due =>
    cases called

theorem Service.call_sends (s : Service) (r : Radio) (call : ServiceCall) :
    r.Sends (s.call r call).2.1 := by
  unfold Service.call
  split
  · exact .refl r
  · next e _ =>
    split
    · next answer called =>
      obtain ⟨s', r', result⟩ := answer
      exact .idle (callEndpoint_idle called)
    · cases s with
      | observable o =>
        cases call with
        | setStatus v => exact o.setStatus_sends r v
        | _ => exact .refl r
      | plain _ => exact .refl r
      | probe _ => exact .refl r

theorem Radio.drawIds_idle (r : Radio) (last : StepResult) (times : Nat) :
    r.Idle (r.drawIds last times).1 := by
  induction times generalizing r last with
  | zero => exact Idle.refl r
  | succ times ih => exact r.drawId_idle.trans (ih _ _)

theorem Radio.drawTokens_idle (r : Radio) (last : StepResult) (times : Nat) :
    r.Idle (r.drawTokens last times).1 := by
  induction times generalizing r last with
  | zero => exact Idle.refl r
  | succ times ih => exact r.drawToken_idle.trans (ih _ _)

end CoapNode
