import CoapNode.Proofs.Node.Steadiness
/-! An observable resource that its application lends to a radio, among any other services. In
one turn the radio calls on the resource once at most, and what the resource is afterwards is
what came of that visit. -/
namespace CoapNode

/-! ## Turns -/

/-- A node, one observable resource of its application, and the events that elapsed so far. -/
structure Publisher where
  node : Node
  resource : Observable
  elapsed : List TimerEvent

/-- What happens next. The resource stands between the other services lent, is called by the
application, or is left alone. The other services are lent in whatever state they are. -/
inductive Turn where
  | receive (peer : NodeId) (bytes : List UInt8) (before after : List Service)
  | fire (event : TimerEvent) (before after : List Service)
  | call (c : ServiceCall)
  | apart (op : Operation)

def Operation.elapses : Operation → Option TimerEvent
  | fire event _ => some event
  | _ => none

def Turn.operation (s : Observable) : Turn → Operation
  | receive peer bytes before after => .receive peer bytes (before ++ .observable s :: after)
  | fire event before after => .fire event (before ++ .observable s :: after)
  | call c => .call (.observable s) c
  | apart op => op

namespace Publisher

/-- The resource as the node gives it back. -/
def returned (p : Publisher) : Turn → Option Service
  | .receive peer bytes before after =>
    (p.node.receive peer bytes (before ++ .observable p.resource :: after)).2.1[before.length]?
  | .fire event before after =>
    (p.node.fire event (before ++ .observable p.resource :: after)).2.1[before.length]?
  | .call c => some ((Service.observable p.resource).call p.node.radio c).1
  | .apart _ => none

def step (p : Publisher) (t : Turn) : Publisher where
  node := (t.operation p.resource).apply p.node
  resource := ((p.returned t).bind Service.observable?).getD p.resource
  elapsed := p.elapsed ++ (t.operation p.resource).elapses.toList

def after (p : Publisher) (turns : List Turn) : Publisher := turns.foldl step p

end Publisher

/-! ## Visits -/

/-- A radio calling on the resource, in the state in which it does. -/
inductive Visit where
  /-- A request is offered. -/
  | offer (n : Node) (m : Received)
  /-- The status is about to get stale. -/
  | refresh (r : Radio)
  /-- A message with this token was reset or expired. -/
  | forget (r : Radio) (peer : NodeId) (token : ShortBytes)
  /-- The peer reset a message the radio does not know. -/
  | disown (r : Radio) (peer : NodeId) (id : MessageId)
  /-- The application calls. -/
  | call (r : Radio) (c : ServiceCall)

namespace Observable

def called (s : Observable) (r : Radio) : ServiceCall → Observable × Radio
  | .shutdown => s.shutdown r
  | .register =>
    let (s, r, _) := s.attach r
    (s, r)
  | .setSubresources on => ({ s with endpoint := { s.endpoint with subresources := on } }, r)
  | c =>
    let (s, r, _) := Service.callObservable s r c
    (s, r)

theorem call_observable (s : Observable) (r : Radio) (c : ServiceCall) :
    ((Service.observable s).call r c).1 = .observable (s.called r c).1 ∧
      ((Service.observable s).call r c).2.1 = (s.called r c).2 := by
  cases c <;> exact ⟨rfl, rfl⟩

end Observable

namespace Visit

def radio : Visit → Radio
  | offer n _ => n.radio
  | refresh r | forget r _ _ | disown r _ _ | call r _ => r

/-- The resource and the radio after the visit. -/
def done (s : Observable) : Visit → Observable × Radio
  | offer n m => ((s.offer n m).1, (s.offer n m).2.1.radio)
  | refresh r => s.timerFired r
  | forget r peer token => s.forget r peer token
  | disown r peer id => ((s.forgetNotified r peer id).1, (s.forgetNotified r peer id).2.1)
  | call r c => s.called r c

def asked (s : Observable) : Visit → List TimerEvent
  | offer n m => (s.offer n m).2.1.askedSince n
  | _ => []

end Visit

namespace Node

/-- A new message is offered if it is a request that nobody before took, and the registration
is current. -/
def offers? (n : Node) (m : Received) (before : List Service)
    (registration : Option RegistrationId) : Option Visit :=
  if m.packet.code.isEmpty || !m.packet.isRequest then none
  else
    match n.offerRequest m before with
    | (_, _, _, true) => none
    | (n, m, _, false) =>
      if registration.any n.radio.isRegistered then some (.offer n m) else none

/-- A message that was seen before is not offered again. -/
def originalOffers? (n : Node) (peer : NodeId) (packet : Message) (before : List Service)
    (registration : Option RegistrationId) : Option Visit :=
  match n.radio.remembered.find? fun s => s.peer == peer && s.id == packet.id with
  | some _ => none
  | none =>
    { n with radio := n.radio.remember peer packet.id }.offers? (.fresh packet peer) before
      registration

def tellsReset (n : Node) (peer : NodeId) (packet : Message) (before : List Service) : Visit :=
  match n.radio.takeUnacknowledged peer packet.id with
  | (radio, some sent) =>
    let n := Node.note { n with radio } .debug
      (packet.id.inspect ++ " was reset by " ++ toString peer)
    let (_, n) := Service.forEach (·.peerReset · peer sent.packet.token) before n
    .forget n.radio peer sent.packet.token
  | (radio, none) =>
    .disown ({ n with radio }.askUnmatched peer packet.id before).1.radio peer packet.id

def tellsExpiry? (n : Node) (id : MessageId) (before : List Service) : Option Visit :=
  let index := n.radio.unacknowledged.findIdx fun s => s.packet.id == id
  match n.radio.unacknowledged[index]? with
  | none => none
  | some entry =>
    match entry.backoff.nextAttempt with
    | (some _, _) => none
    | (none, _) =>
      let (n, _) := n.giveUp index entry before
      some (.forget n.radio entry.peer entry.packet.token)

/-- Services with the registration are told that their status gets stale. -/
def toldStale (n : Node) (id : RegistrationId) (services : List Service) : List Service × Node :=
  Service.forEach (fun s n => if s.registration = some id then s.timerFired n id else (s, n))
    services n

end Node

def Publisher.visit? (p : Publisher) : Turn → Option Visit
  | .receive peer bytes before _ =>
    if peer = p.node.radio.self then none
    else
      match Packet.decode 128 bytes with
      | .error _ => none
      | .ok packet =>
        let n := p.node.heard peer packet
        match packet.kind with
        | .acknowledgement => none
        | .reset => some (n.tellsReset peer packet before)
        | .confirmable | .nonConfirmable =>
          n.originalOffers? peer packet before p.resource.endpoint.registration
  | .fire (.retransmit id) before _ => p.node.tellsExpiry? id before
  | .fire (.maxAge id) before _ =>
    if p.resource.endpoint.registration = some id then
      some (.refresh (p.node.toldStale id before).2.radio)
    else none
  | .call c => some (.call p.node.radio c)
  | .apart _ => none

/-! ## Services lent together -/

namespace Service

theorem forEach_append (act : Service → Node → Service × Node) (before rest : List Service)
    (n : Node) : forEach act (before ++ rest) n =
      ((forEach act before n).1 ++ (forEach act rest (forEach act before n).2).1,
        (forEach act rest (forEach act before n).2).2) := by
  induction before generalizing n with
  | nil => rfl
  | cons s before ih => simp only [List.cons_append, forEach, ih]

theorem forEach_length (act : Service → Node → Service × Node) (services : List Service)
    (n : Node) : (forEach act services n).1.length = services.length := by
  induction services generalizing n with
  | nil => rfl
  | cons s rest ih => simp only [forEach, List.length_cons, ih]

theorem forEach_middle (act : Service → Node → Service × Node) (before after : List Service)
    (s : Service) (n : Node) : (forEach act (before ++ s :: after) n).1[before.length]? =
      some (act s (forEach act before n).2).1 := by
  rw [forEach_append, List.getElem?_append_right (Nat.le_of_eq (forEach_length ..)),
    forEach_length, Nat.sub_self]
  rfl

end Service

namespace Node

theorem askUnmatched_append (n : Node) (peer : NodeId) (id : MessageId)
    (before rest : List Service) : n.askUnmatched peer id (before ++ rest) =
      (let told := n.askUnmatched peer id before
      let others := told.1.askUnmatched peer id rest
      (others.1, told.2.1 ++ others.2.1, told.2.2 || others.2.2)) := by
  induction before generalizing n with
  | nil => simp [askUnmatched]
  | cons s before ih => simp [askUnmatched, ih, Bool.or_assoc]

theorem askUnmatched_length (n : Node) (peer : NodeId) (id : MessageId)
    (services : List Service) :
    (n.askUnmatched peer id services).2.1.length = services.length := by
  induction services generalizing n with
  | nil => rfl
  | cons s rest ih => simp only [askUnmatched, List.length_cons, ih]

theorem offerRequest_append (n : Node) (m : Received) (before rest : List Service) :
    n.offerRequest m (before ++ rest) =
      (let first := n.offerRequest m before
      if first.2.2.2 then (first.1, first.2.1, first.2.2.1 ++ rest, true)
      else
        let second := first.1.offerRequest first.2.1 rest
        (second.1, second.2.1, first.2.2.1 ++ second.2.2.1, second.2.2.2)) := by
  induction before generalizing n m with
  | nil => simp [offerRequest]
  | cons s before ih =>
    simp only [List.cons_append, offerRequest]
    split
    · generalize s.offer n m = offered
      obtain ⟨s', n', m', taken⟩ := offered
      cases taken with
      | true => simp
      | false => simp only [Bool.false_eq_true, if_false, ih]; split <;> simp_all
    · simp only [ih]; split <;> simp_all

theorem offerRequest_length (n : Node) (m : Received) (services : List Service) :
    (n.offerRequest m services).2.2.1.length = services.length := by
  induction services generalizing n m with
  | nil => rfl
  | cons s rest ih =>
    simp only [offerRequest]
    split
    · split
      · rfl
      · simp only [List.length_cons, ih]
    · simp only [List.length_cons, ih]

theorem receiveRequest_services (n : Node) (m : Received) (services : List Service) :
    (n.receiveRequest m services).2.1 = (n.offerRequest m services).2.2.1 := by
  unfold receiveRequest
  simp only
  split <;> rfl

end Node

/-! ## Turns and visits -/

theorem lasting_trivial : Radio.Lasting fun _ _ => True := by
  constructor <;> intros <;> first | trivial | constructor <;> intros <;>
    first | trivial | constructor <;> intros <;> trivial

/-- Between two nodes the resource, which comes back as this service, had this visit and no
other. Before it and after it the radio does what it does without the resource. -/
structure Hosts (R : Radio → Radio → Prop) (s : Observable) (n n' : Node) (visit : Option Visit)
    (back : Option Service) : Prop where
  back : back = some (.observable (visit.elim s fun v => (v.done s).1))
  before : ∀ v, visit = some v → R n.radio v.radio
  after : ∀ v, visit = some v → R (v.done s).2 n'.radio
  away : visit = none → R n.radio n'.radio
  asked : ∀ v, visit = some v → v.asked s ⊆ n'.askedSince n

section

variable {R : Radio → Radio → Prop} {s : Observable} {n n' m : Node} {back : Option Service}

theorem Hosts.unvisited (same : back = some (.observable s)) (away : R n.radio n'.radio) :
    Hosts R s n n' none back := ⟨same, by simp, by simp, fun _ => away, by simp⟩

theorem Hosts.visited {v : Visit} (same : back = some (.observable (v.done s).1))
    (before : R n.radio v.radio) (after : R (v.done s).2 n'.radio)
    (asked : v.asked s ⊆ n'.askedSince n) : Hosts R s n n' (some v) back :=
  ⟨same, by rintro _ ⟨⟩; exact before, by rintro _ ⟨⟩; exact after, by simp,
    by rintro _ ⟨⟩; exact asked⟩

theorem Hosts.preceded (lasting : Radio.Lasting R) {visit : Option Visit}
    (hosts : Hosts R s m n' visit back) (first : R n.radio m.radio)
    (unwritten : m.journal = n.journal) : Hosts R s n n' visit back :=
  ⟨hosts.back, fun v visited => lasting.trans first (hosts.before v visited), hosts.after,
    fun none => lasting.trans first (hosts.away none), by
      simpa only [Node.askedSince, unwritten] using hosts.asked⟩

end

section

variable {R : Radio → Radio → Prop} (lasting : Radio.Lasting R) (s : Observable)
  {before after : List Service} (asks : ∀ x ∈ before ++ after, Radio.Permits R x.asks)

theorem getElem?_middle (s : Observable) (before after : List Service) :
    (before ++ .observable s :: after)[before.length]? = some (.observable s) := by
  simp

include lasting

theorem hosts_forEach {act : Service → Node → Service × Node}
    (each : ∀ x ∈ before ++ after, ∀ n : Node, R n.radio (act x n).2.radio) (n : Node) {v : Visit}
    (here : v.radio = (Service.forEach act before n).2.radio)
    (acts : act (.observable s) (Service.forEach act before n).2 =
      (.observable (v.done s).1,
        { (Service.forEach act before n).2 with radio := (v.done s).2 }))
    (unhandled : v.asked s = []) :
    Hosts R s n (Service.forEach act (before ++ .observable s :: after) n).2 (some v)
      (Service.forEach act (before ++ .observable s :: after) n).1[before.length]? := by
  obtain ⟨first, others⟩ := List.forall_mem_append.mp each
  refine .visited ?_ ?_ ?_ (by simp [unhandled])
  · rw [Service.forEach_middle, acts]
  · rw [here]
    exact lasting.forEach first n
  · rw [Service.forEach_append]
    simp only [Service.forEach, acts]
    exact lasting.forEach others { (Service.forEach act before n).2 with radio := (v.done s).2 }

theorem hosts_reset (n : Node) (peer : NodeId) {packet : Message} (reset : packet.kind = .reset) :
    let replied := n.receiveReply peer packet (before ++ .observable s :: after)
    Hosts R s n replied.1 (some (n.tellsReset peer packet before))
      replied.2.1[before.length]? := by
  have taken := lasting.takeUnacknowledged n.radio peer packet.id
  unfold Node.receiveReply Node.tellsReset
  simp only [reset]
  generalize n.radio.takeUnacknowledged peer packet.id = found at taken ⊢
  obtain ⟨r, sent | sent⟩ := found
  · have told := lasting.askUnmatched { n with radio := r } peer packet.id before
    simp only [Node.askUnmatched_append]
    generalize asked : Node.askUnmatched { n with radio := r } peer packet.id before = first at told
    refine .visited ?_ (lasting.trans taken told) ?_ (List.nil_subset _)
    · have place : first.2.1.length = before.length := by
        rw [← asked, Node.askUnmatched_length]
      rw [List.getElem?_append_right (Nat.le_of_eq place), place, Nat.sub_self]
      rfl
    · exact lasting.askUnmatched { first.1 with
        radio := (s.forgetNotified first.1.radio peer packet.id).2.1 } peer packet.id after
  · -- an unacknowledged message was reset, which every service is told
    have noted := lasting.trans taken (lasting.note r .debug
      (packet.id.inspect ++ " was reset by " ++ toString peer))
    exact Hosts.preceded lasting (hosts_forEach lasting s
      (fun x _ n => lasting.peerReset x n peer sent.packet.token)
      (Node.note { n with radio := r } .debug
        (packet.id.inspect ++ " was reset by " ++ toString peer))
      (v := .forget _ peer sent.packet.token) rfl rfl rfl) noted rfl

theorem hosts_expiry (n : Node) (id : MessageId) :
    let repeated := n.retransmit id (before ++ .observable s :: after)
    Hosts R s n repeated.1 (n.tellsExpiry? id before) repeated.2.1[before.length]? := by
  have kept := getElem?_middle s before after
  unfold Node.retransmit Node.tellsExpiry?
  simp only
  cases found : n.radio.unacknowledged[
    n.radio.unacknowledged.findIdx fun x => x.packet.id == id]? with
  | none => exact .unvisited kept (lasting.refl _)
  | some entry =>
  simp only
  generalize entry.backoff.nextAttempt = attempt
  obtain ⟨_ | delay, backoff⟩ := attempt
  · simp only [Node.giveUp]
    have dropped := lasting.trans (lasting.history n.radio (n.radio.unacknowledged.eraseIdx
      (n.radio.unacknowledged.findIdx fun x => x.packet.id == id))) (lasting.note _ .warn
        (entry.packet.id.inspect ++ " to " ++ toString entry.peer ++ " was never acknowledged"))
    generalize Radio.note _ _ _ = r at dropped ⊢
    exact Hosts.preceded lasting (hosts_forEach lasting s
      (fun x _ n => lasting.expired x n entry.peer entry.packet.token) { n with radio := r }
      (v := .forget _ entry.peer entry.packet.token) rfl rfl rfl) dropped rfl
  · exact .unvisited kept (lasting.repeatMessage n _ entry delay backoff)

include asks

theorem hosts_offers (n : Node) (m : Received)
    (tolerates : ∀ event ∈
      (n.receiveRequest m (before ++ .observable s :: after)).1.askedSince n,
      Radio.Tolerates R event) :
    let received := n.receiveRequest m (before ++ .observable s :: after)
    Hosts R s n received.1
      (match n.offerRequest m before with
        | (_, _, _, true) => none
        | (n, m, _, false) =>
          if s.endpoint.registration.any n.radio.isRegistered then some (.offer n m) else none)
      received.2.1[before.length]? := by
  obtain ⟨asksBefore, asksAfter⟩ := List.forall_mem_append.mp asks
  have rest := lasting.receiveRequest_rest n m (before ++ .observable s :: after)
  intro received
  rw [show received.2.1 = _ from n.receiveRequest_services m _]
  replace rest : Node.Binds R _ received.1 := rest
  replace tolerates : ∀ event ∈ received.1.askedSince n, Radio.Tolerates R event := tolerates
  have first := lasting.offerRequest n m asksBefore
  have place := n.offerRequest_length m before
  rw [n.offerRequest_append] at rest ⊢
  generalize n.offerRequest m before = offered at rest first place ⊢
  obtain ⟨n₁, m₁, others, taken⟩ := offered
  -- the resource is reached only if none of those before it took the request
  cases taken with
  | true =>
    refine .unvisited ?_ ((first.trans lasting.toSteady rest).related tolerates)
    simp only [if_true]
    rw [List.getElem?_append_right (Nat.le_of_eq place), place, Nat.sub_self]
    rfl
  | false =>
    simp only [Bool.false_eq_true, if_false] at rest ⊢
    rw [List.getElem?_append_right (Nat.le_of_eq place), place, Nat.sub_self]
    by_cases current : s.endpoint.registration.any n₁.radio.isRegistered = true
    · rw [if_pos current]
      have here : (Service.observable s).registration.any n₁.radio.isRegistered = true := current
      unfold Node.offerRequest at rest ⊢
      rw [if_pos here] at rest ⊢
      have own := lasting_trivial.offerObservable s n₁ m₁ fun _ _ _ _ => trivial
      have last : Node.Binds R (s.offer n₁ m₁).2.1 received.1 := by
        refine .trans lasting.toSteady ?_ rest
        simp only
        split
        · exact .refl lasting.toSteady _
        · exact lasting.offerRequest _ _ asksAfter
      -- what was asked for before, in the visit and after it
      have asked := Node.askedSince_trans (first.wrote.trans own.wrote) last.wrote
      rw [Node.askedSince_trans first.wrote own.wrote] at asked
      rw [asked] at tolerates
      obtain ⟨earlier, later⟩ := List.forall_mem_append.mp tolerates
      refine .visited ?_ (first.related (List.forall_mem_append.mp earlier).1)
        (last.related later) ?_
      · simp only
        split <;> rfl
      · rw [asked]
        exact fun event member => List.mem_append_left _ (List.mem_append_right _ member)
    · rw [if_neg current]
      have away : ¬ (Service.observable s).registration.any n₁.radio.isRegistered = true := current
      unfold Node.offerRequest at rest ⊢
      rw [if_neg away] at rest ⊢
      have others := (lasting.offerRequest n₁ m₁ asksAfter).trans lasting.toSteady rest
      exact .unvisited rfl ((first.trans lasting.toSteady others).related tolerates)

theorem hosts_original (n : Node) (peer : NodeId) (packet : Message)
    (tolerates : ∀ event ∈
      (n.receiveOriginal peer packet (before ++ .observable s :: after)).1.askedSince n,
      Radio.Tolerates R event) :
    let received := n.receiveOriginal peer packet (before ++ .observable s :: after)
    Hosts R s n received.1
      (n.originalOffers? peer packet before s.endpoint.registration)
      received.2.1[before.length]? := by
  have kept := getElem?_middle s before after
  unfold Node.receiveOriginal at tolerates ⊢
  unfold Node.originalOffers?
  cases seen : n.radio.remembered.find? fun x => x.peer == peer && x.id == packet.id with
  | some known =>
    exact .unvisited kept (lasting.receiveDuplicate n.radio peer packet known.response)
  | none =>
    have remembered := lasting.remember n.radio peer packet.id
    refine Hosts.preceded lasting (m := { n with radio := n.radio.remember peer packet.id }) ?_
      remembered rfl
    simp only [seen] at tolerates ⊢
    replace tolerates : ∀ event ∈ (Node.receiveNew { n with
        radio := n.radio.remember peer packet.id } peer packet
          (before ++ .observable s :: after)).1.askedSince
        { n with radio := n.radio.remember peer packet.id }, Radio.Tolerates R event := tolerates
    generalize { n with radio := n.radio.remember peer packet.id } = n₁ at tolerates ⊢
    unfold Node.receiveNew at tolerates ⊢
    unfold Node.offers?
    cases empty : packet.code.isEmpty with
    | true =>
      simp only [Received.fresh, empty, if_true, Bool.true_or]
      exact .unvisited kept (lasting.receivePing n₁ peer packet)
    | false =>
      cases request : packet.isRequest with
      | true =>
        simp only [Received.fresh, empty, request, Bool.not_true, Bool.or_self,
          Bool.false_eq_true, if_false, if_true] at tolerates ⊢
        exact hosts_offers lasting s asks n₁ ⟨packet, peer, false, false⟩ tolerates
      | false =>
        simp only [Received.fresh, empty, request, Bool.not_false, Bool.or_true,
          Bool.false_eq_true, if_false, if_true]
        split
        · exact .unvisited kept (lasting.receiveResponse n₁ ⟨packet, peer, false, false⟩)
        · exact .unvisited kept (lasting.refl _)

theorem hosts_stale (n : Node) (id : RegistrationId) :
    let told := n.toldStale id (before ++ .observable s :: after)
    Hosts R s n told.2
      (if s.endpoint.registration = some id then some (.refresh (n.toldStale id before).2.radio)
        else none)
      told.1[before.length]? := by
  have each := fun x member n => lasting.timerFires x n id (asks x member)
  by_cases mine : s.endpoint.registration = some id
  · rw [if_pos mine]
    refine hosts_forEach lasting s each n (v := .refresh (n.toldStale id before).2.radio) rfl ?_ rfl
    exact if_pos mine
  · rw [if_neg mine]
    have away : ¬ (Service.observable s).registration = some id := mine
    obtain ⟨first, others⟩ := List.forall_mem_append.mp each
    refine .unvisited ?_ ?_
    · rw [Node.toldStale, Service.forEach_middle, if_neg away]
    · rw [Node.toldStale, Service.forEach_append]
      simp only [Service.forEach, if_neg away]
      exact lasting.trans (lasting.forEach first n) (lasting.forEach others _)

end

def Turn.others : Turn → List Service
  | receive _ _ before after | fire _ before after => before ++ after
  | call _ | apart _ => []

namespace Publisher

variable {R : Radio → Radio → Prop} (lasting : Radio.Lasting R)

include lasting

theorem hosts_receive (p : Publisher) (peer : NodeId) (bytes : List UInt8)
    {before after : List Service} (asks : ∀ x ∈ before ++ after, Radio.Permits R x.asks)
    (tolerates : ∀ event ∈ (p.node.receive peer bytes
      (before ++ .observable p.resource :: after)).1.askedSince p.node,
      Radio.Tolerates R event) :
    let received := p.node.receive peer bytes (before ++ .observable p.resource :: after)
    Hosts R p.resource p.node received.1 (p.visit? (.receive peer bytes before after))
      received.2.1[before.length]? := by
  have kept := getElem?_middle p.resource before after
  unfold Node.receive at tolerates ⊢
  unfold visit?
  by_cases own : peer = p.node.radio.self
  · simp only [if_pos own]
    exact .unvisited kept (lasting.note p.node.radio _ _)
  simp only [if_neg own] at tolerates ⊢
  cases read : Packet.decode 128 bytes with
  | error refusal => exact .unvisited kept (lasting.reject p.node.radio peer refusal)
  | ok packet =>
  have noted := lasting.note p.node.radio .trace
    ("<- " ++ toString peer ++ " " ++ packet.summary)
  refine Hosts.preceded lasting (m := p.node.heard peer packet) ?_ noted rfl
  simp only [read] at tolerates ⊢
  cases kind : packet.kind with
  | acknowledgement =>
    have taken := lasting.takeUnacknowledged (p.node.heard peer packet).radio peer packet.id
    refine .unvisited ?_ ?_
    · simp only [kind, Node.receiveReply]
      split <;> exact kept
    · simp only [kind, Node.receiveReply]
      split <;> exact taken
  | reset => exact hosts_reset lasting p.resource (p.node.heard peer packet) peer kind
  | confirmable | nonConfirmable =>
    rw [kind] at tolerates
    exact hosts_original lasting p.resource asks (p.node.heard peer packet) peer packet tolerates

theorem hosts_returned (p : Publisher) (t : Turn) (lent : ∀ op, t ≠ .apart op)
    (asks : ∀ x ∈ t.others, Radio.Permits R x.asks)
    (tolerates : ∀ event ∈ (t.operation p.resource).asked p.node, Radio.Tolerates R event) :
    Hosts R p.resource p.node (p.step t).node (p.visit? t) (p.returned t) := by
  cases t with
  | receive peer bytes before after => exact p.hosts_receive lasting peer bytes asks tolerates
  | fire event before after =>
    cases event with
    | retransmit id => exact hosts_expiry lasting p.resource p.node id
    | maxAge id => exact hosts_stale lasting p.resource asks p.node id
  | call c =>
    obtain ⟨resource, radio⟩ := p.resource.call_observable p.node.radio c
    refine .visited (congrArg some resource) (lasting.refl _) ?_ (List.nil_subset _)
    change R (p.resource.called p.node.radio c).2 (Service.call _ _ c).2.1
    rw [radio]
    exact lasting.refl _
  | apart op => exact absurd rfl (lent op)

omit lasting

/-- After a turn the resource is what came of the visit. -/
theorem step_resource (p : Publisher) (t : Turn) :
    (p.step t).resource = (p.visit? t).elim p.resource fun v => (v.done p.resource).1 := by
  cases kind : t with
  | apart op => rfl
  | receive _ _ _ _ | fire _ _ _ | call _ =>
    have back := (p.hosts_returned lasting_trivial t (by simp [kind])
      (fun _ _ _ _ _ _ => trivial) fun _ _ _ _ => trivial).back
    rw [kind] at back
    simp only [step, back, Option.bind_some, Service.observable?, Option.getD_some]

end Publisher
end CoapNode
