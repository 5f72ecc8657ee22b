import CoapNode.Proofs.Node.Growth
/-! Runs of a node. An operation lets the history grow, takes out the message that an answer
is for, repeats the message that an event is for, or gives that message up. -/
namespace CoapNode

/-- What the world and the application can do to a node. Services are lent anew to each
operation, in whatever state they are. -/
inductive Operation where
  | receive (peer : NodeId) (bytes : List UInt8) (services : List Service)
  | fire (event : TimerEvent) (services : List Service)
  /-- An action of the application's own, for a message it kept or for none in particular. -/
  | perform (action : Action) (m : Received)
  | call (service : Service) (call : ServiceCall)
  | create (spec : ServiceSpec)
  | schedule (after : Nat) (event : TimerEvent)
  | drawIds (times : Nat)
  | drawTokens (times : Nat)
  | setOutcomes (outcomes : List SendOutcome)
  | setClock (ticks : Nat) (broken : Bool)

namespace Operation

def apply (op : Operation) (n : Node) : Node :=
  match op with
  | receive peer bytes services => (n.receive peer bytes services).1
  | fire event services => (n.fire event services).1
  | perform action m => (action.perform n m).1
  | call service c => { n with radio := (service.call n.radio c).2.1 }
  | create spec => { n with radio := (Service.create n.radio spec).1 }
  | schedule after event => { n with radio := n.radio.schedule after event }
  | drawIds times => { n with radio := (n.radio.drawIds .silent times).1 }
  | drawTokens times => { n with radio := (n.radio.drawTokens .silent times).1 }
  | setOutcomes outcomes =>
    { n with radio := { n.radio with network := { n.radio.network with outcomes } } }
  | setClock ticks broken =>
    { n with radio := { n.radio with clock := { n.radio.clock with ticks, broken } } }

/-- The events that the application asks for on its own account, in handlers or outside. -/
def asked (op : Operation) (n : Node) : List TimerEvent :=
  match op with
  | receive _ _ _ => (op.apply n).askedSince n
  | perform action _ => action.asked?.toList
  | schedule _ event => [event]
  | _ => []

def fired : Operation → Option MessageId
  | fire event _ => event.retransmits?
  | _ => none

/-- An acknowledgement or a reset from the entry's own peer with its id. Nodes do not listen
to themselves. -/
def Answers (op : Operation) (self : NodeId) (e : Unacknowledged) : Prop :=
  ∃ bytes services packet, op = receive e.peer bytes services ∧
    Packet.decode 128 bytes = .ok packet ∧
    (packet.kind = .acknowledgement ∨ packet.kind = .reset) ∧
    packet.id = e.packet.id ∧ e.peer ≠ self

theorem Answers.same_id {op : Operation} {self : NodeId} {e x : Unacknowledged}
    (one : op.Answers self e) (other : op.Answers self x) : e.packet.id = x.packet.id := by
  obtain ⟨_, _, packet, rfl, read, -, id, -⟩ := one
  obtain ⟨_, _, packet', same, read', -, id', -⟩ := other
  obtain ⟨-, sameBytes, -⟩ := Operation.receive.inj same
  rw [← sameBytes, read] at read'
  cases read'
  exact id.symm.trans id'

def RepeatsAnswer (op : Operation) (n : Node) (t : Transmission) : Prop :=
  ∃ peer bytes services packet, op = receive peer bytes services ∧
    Packet.decode 128 bytes = .ok packet ∧ n.RepeatsAnswer peer packet t

end Operation

def Radio.without (r : Radio) (i : Nat) : Radio :=
  { r with unacknowledged := r.unacknowledged.eraseIdx i }

namespace Node

/-! ## Answers -/

theorem takeUnacknowledged_cases (r : Radio) (peer : NodeId) (id : MessageId) :
    (r.takeUnacknowledged peer id = (r, none) ∧
        ∀ e ∈ r.unacknowledged, ¬ (e.peer = peer ∧ e.packet.id = id)) ∨
      ∃ i e, r.unacknowledged[i]? = some e ∧ e.peer = peer ∧ e.packet.id = id ∧
        r.takeUnacknowledged peer id = (r.without i, some e) := by
  unfold Radio.takeUnacknowledged
  split
  · next absent =>
    refine .inl ⟨rfl, fun e member same => ?_⟩
    have := List.findIdx?_eq_none_iff.mp absent e member
    simp [same.1, same.2] at this
  · next i found =>
    obtain ⟨inside, same, -⟩ := List.findIdx?_eq_some_iff_getElem.mp found
    simp only [Bool.and_eq_true, beq_iff_eq] at same
    have this : r.unacknowledged[i]? = some r.unacknowledged[i] := List.getElem?_eq_getElem inside
    exact .inr ⟨i, r.unacknowledged[i], this, same.1, same.2, by rw [this]; rfl⟩

theorem receiveReply_cases (n : Node) (peer : NodeId) (packet : Message)
    (services : List Service)
    (reply : packet.kind = .acknowledgement ∨ packet.kind = .reset) :
    (n.Grows (n.receiveReply peer packet services).1 ∧
        ∀ e ∈ n.radio.unacknowledged, ¬ (e.peer = peer ∧ e.packet.id = packet.id)) ∨
      ∃ i e, n.radio.unacknowledged[i]? = some e ∧ e.peer = peer ∧
        e.packet.id = packet.id ∧
        Node.Grows { n with radio := n.radio.without i }
          (n.receiveReply peer packet services).1 := by
  unfold receiveReply
  rcases takeUnacknowledged_cases n.radio peer packet.id with
    ⟨taken, absent⟩ | ⟨i, e, found, samePeer, sameId, taken⟩
  · refine .inl ⟨?_, absent⟩
    rw [taken]
    rcases reply with kind | kind <;> simp only [kind]
    · split <;> exact Grows.refl n
    · exact (n.askUnmatched_tends peer packet.id services).grows
  · refine .inr ⟨i, e, found, samePeer, sameId, ?_⟩
    rw [taken]
    rcases reply with kind | kind <;> simp only [kind]
    · split <;> exact Grows.refl _
    · exact (note_grows _ _ _).trans
        (Service.forEach_tends (fun s n => s.peerReset_tends n peer e.packet.token)
          services _).grows

def heard (n : Node) (peer : NodeId) (packet : Message) : Node :=
  n.note .trace ("<- " ++ toString peer ++ " " ++ packet.summary)

theorem receive_of_decode (n : Node) {peer : NodeId} {bytes : List UInt8} {packet : Message}
    (services : List Service) (other : peer ≠ n.radio.self)
    (read : Packet.decode 128 bytes = .ok packet) :
    (packet.kind = .acknowledgement ∨ packet.kind = .reset →
        (n.receive peer bytes services).1 =
          ((n.heard peer packet).receiveReply peer packet services).1) ∧
      (packet.kind = .confirmable ∨ packet.kind = .nonConfirmable →
        n.receive peer bytes services =
          (n.heard peer packet).receiveOriginal peer packet services) := by
  unfold receive
  rw [if_neg other]
  simp only [read]
  constructor
  · rintro (kind | kind) <;> rw [kind] <;> rfl
  · rintro (kind | kind) <;> rw [kind] <;> rfl

theorem answers_of_decode {self peer : NodeId} {bytes : List UInt8} {services : List Service}
    {packet : Message} (other : peer ≠ self) (read : Packet.decode 128 bytes = .ok packet)
    (e : Unacknowledged) :
    (Operation.receive peer bytes services).Answers self e ↔
      (packet.kind = .acknowledgement ∨ packet.kind = .reset) ∧ e.peer = peer ∧
        e.packet.id = packet.id := by
  constructor
  · rintro ⟨_, _, packet', same, read', kind, id, -⟩
    cases same
    rw [read] at read'
    cases read'
    exact ⟨kind, rfl, id.symm⟩
  · rintro ⟨kind, rfl, id⟩
    exact ⟨bytes, services, packet, rfl, read, kind, id.symm, other⟩

/-- A datagram takes at most one message out of the history, one that it answers. -/
theorem receive_cases (n : Node) (peer : NodeId) (bytes : List UInt8) (services : List Service)
    (unasked : ∀ event ∈ (n.receive peer bytes services).1.askedSince n,
      event.retransmits? = none) :
    (∃ i e, n.radio.unacknowledged[i]? = some e ∧
        (Operation.receive peer bytes services).Answers n.radio.self e ∧
        Node.Grows { n with radio := n.radio.without i } (n.receive peer bytes services).1) ∨
      (∀ e ∈ n.radio.unacknowledged,
          ¬ (Operation.receive peer bytes services).Answers n.radio.self e) ∧
        (n.Grows (n.receive peer bytes services).1 ∨
          ∃ t, (Operation.receive peer bytes services).RepeatsAnswer n t ∧
            n.radio.Extends (n.receive peer bytes services).1.radio [t] [] ∧
            (n.receive peer bytes services).1.expiries = n.expiries) := by
  by_cases own : peer = n.radio.self
  · refine .inr ⟨?_, .inl ?_⟩
    · rintro e - ⟨_, _, _, same, -, -, -, other⟩
      cases same
      exact other own
    · rw [receive, if_pos own]
      exact n.note_grows _ _
  cases read : Packet.decode 128 bytes with
  | error refusal =>
    refine .inr ⟨?_, .inl ?_⟩
    · rintro e - ⟨_, _, _, same, read', -⟩
      cases same
      rw [read] at read'
      cases read'
    · rw [receive, if_neg own]
      simp only [read]
      exact grows_of_radio (reject_grows _ _ _)
  | ok packet =>
    have noted : n.Grows (n.heard peer packet) := n.note_grows _ _
    have answered : ∀ e, (Operation.receive peer bytes services).Answers n.radio.self e ↔
        (packet.kind = .acknowledgement ∨ packet.kind = .reset) ∧ e.peer = peer ∧
          e.packet.id = packet.id := answers_of_decode own read
    obtain ⟨replied, original⟩ := n.receive_of_decode services own read
    by_cases reply : packet.kind = .acknowledgement ∨ packet.kind = .reset
    · rw [replied reply]
      rcases (n.heard peer packet).receiveReply_cases peer packet services reply with
        ⟨grows, absent⟩ | ⟨i, e, found, samePeer, sameId, grows⟩
      · exact .inr ⟨fun e member answers => absent e member ((answered e).mp answers).2,
          .inl (noted.trans grows)⟩
      · have later : Node.Grows { n with radio := n.radio.without i }
            { n.heard peer packet with radio := (n.heard peer packet).radio.without i } :=
          note_grows _ _ _
        exact .inl ⟨i, e, found, (answered e).mpr ⟨reply, samePeer, sameId⟩, later.trans grows⟩
    · have kind : packet.kind = .confirmable ∨ packet.kind = .nonConfirmable := by
        cases kind : packet.kind <;> simp [kind] at reply ⊢
      rw [original kind] at unasked ⊢
      refine .inr ⟨fun e _ answers => reply ((answered e).mp answers).1, ?_⟩
      rcases (n.heard peer packet).receiveOriginal_cases peer packet services unasked with
        grows | ⟨t, repeats, extends', expiries⟩
      · exact .inl (noted.trans grows)
      · exact .inr ⟨t, ⟨peer, bytes, services, packet, rfl, read, repeats.request,
          repeats.activity, repeats.goes, repeats.stored⟩,
          (Radio.note_quiet _ _ _).extends.trans extends', expiries⟩

/-! ## Events -/

def listens : Service → Bool
  | .probe p => p.attentive
  | _ => false

theorem expired_quiet (s : Service) (n : Node) (peer : NodeId) (token : ShortBytes) :
    n.radio.Quiet (s.expired n peer token).2.radio ∧
      (s.expired n peer token).2.expiries =
        n.expiries ++ if listens s then [(peer, token)] else [] := by
  refine ⟨(s.expired_idle n peer token).toQuiet, ?_⟩
  cases s with
  | plain e => exact (List.append_nil _).symm
  | observable s => exact (List.append_nil _).symm
  | probe p =>
    cases attentive : p.attentive with
    | true =>
      simp [Service.expired, Probe.tell, attentive, listens, record, expiries,
        List.filterMap_append, JournalEntry.expired?]
    | false =>
      simp [Service.expired, Probe.tell, attentive, listens]

theorem forEach_expired (services : List Service) (n : Node) (peer : NodeId)
    (token : ShortBytes) :
    let told := Service.forEach (·.expired · peer token) services n
    n.radio.Quiet told.2.radio ∧ told.2.expiries =
      n.expiries ++ List.replicate (services.countP listens) (peer, token) := by
  induction services generalizing n with
  | nil => exact ⟨Radio.Quiet.refl _, (List.append_nil _).symm⟩
  | cons s rest ih =>
    obtain ⟨quiet, first⟩ := expired_quiet s n peer token
    obtain ⟨later, others⟩ := ih (s.expired n peer token).2
    refine ⟨quiet.trans later, ?_⟩
    simp only [Service.forEach]
    rw [others, first, List.countP_cons, List.append_assoc]
    congr 1
    cases listens s <;> simp [List.replicate_succ]

def again (e : Unacknowledged) : Unacknowledged :=
  { e with backoff := { e.backoff with attempts := e.backoff.attempts + 1 } }

/-- The entry at this place is sent once more and its next event is asked for. -/
structure Repeats (n n' : Node) (i : Nat) (e : Unacknowledged) : Prop where
  config : n'.radio.config = n.radio.config
  self : n'.radio.self = n.radio.self
  unacknowledged : n'.radio.unacknowledged = n.radio.unacknowledged.set i (again e)
  retransmits : n'.radio.retransmits = n.radio.retransmits ++ [e.packet.id]
  transmissions : e.packet.serializedLength ≤ datagramBuffer →
    ∃ refusal, n'.radio.transmissions = n.radio.transmissions ++
      [⟨e.peer, e.packet, e.packet.datagram, .retransmitting e.packet.id, refusal⟩]
  expiries : n'.expiries = n.expiries

theorem repeatMessage_repeats (n : Node) (i : Nat) (e : Unacknowledged) (delay : Nat) :
    n.Repeats (n.repeatMessage i e delay (again e).backoff).1 i e := by
  unfold repeatMessage
  simp only
  have scheduled := Radio.schedule_retransmits (Radio.note { n.radio with
      unacknowledged := n.radio.unacknowledged.set i { e with backoff := (again e).backoff } }
      .debug ("retransmitting " ++ e.packet.id.inspect ++ " to " ++ toString e.peer ++
        " (attempt " ++ toString (again e).backoff.attempts ++ ")")) delay
    (.retransmit e.packet.id)
  generalize ready : Radio.schedule (Radio.note { n.radio with
      unacknowledged := n.radio.unacknowledged.set i { e with backoff := (again e).backoff } }
      .debug ("retransmitting " ++ e.packet.id.inspect ++ " to " ++ toString e.peer ++
        " (attempt " ++ toString (again e).backoff.attempts ++ ")")) delay
    (.retransmit e.packet.id) = r at scheduled ⊢
  have asked : r.retransmits = n.radio.retransmits ++ [e.packet.id] := scheduled
  rcases r.transmit_cases e.peer e.packet (.retransmitting e.packet.id) with
    ⟨long, same, -⟩ | ⟨refusal, offers, -, -⟩
  · rw [same]
    exact ⟨by rw [← ready]; rfl, by rw [← ready]; rfl, by rw [← ready]; rfl, asked,
      fun fits => absurd long (Nat.not_lt_of_le fits), rfl⟩
  · exact ⟨by rw [offers.config, ← ready]; rfl, by rw [offers.self, ← ready]; rfl,
      by rw [offers.unacknowledged, ← ready]; rfl, by rw [offers.retransmits, asked],
      fun _ => ⟨refusal, by rw [offers.transmissions, ← ready]; rfl⟩, rfl⟩

/-- The entry at this place is given up: every service lent is told once, in order. -/
structure GivesUp (n n' : Node) (i : Nat) (e : Unacknowledged) (services : List Service) :
    Prop where
  told : ∃ log, n' = (Service.forEach (·.expired · e.peer e.packet.token) services
    { n with radio := { n.radio.without i with log } }).2
  radio : (n.radio.without i).Quiet n'.radio
  expiries : n'.expiries =
    n.expiries ++ List.replicate (services.countP listens) (e.peer, e.packet.token)

theorem giveUp_givesUp (n : Node) (i : Nat) (e : Unacknowledged) (services : List Service) :
    n.GivesUp (n.giveUp i e services).1 i e services := by
  obtain ⟨quiet, expiries⟩ := forEach_expired services { n with
    radio := (n.radio.without i).note .warn
      (e.packet.id.inspect ++ " to " ++ toString e.peer ++ " was never acknowledged") }
    e.peer e.packet.token
  exact ⟨⟨_, rfl⟩, (Radio.note_quiet (n.radio.without i) _ _).trans quiet, expiries⟩

theorem retransmit_cases (n : Node) (id : MessageId) (services : List Service) :
    ((∀ e ∈ n.radio.unacknowledged, e.packet.id ≠ id) ∧
        n.retransmit id services = (n, services, .ok ())) ∨
      ∃ i e, n.radio.unacknowledged[i]? = some e ∧ e.packet.id = id ∧
        ((e.backoff.attempts < e.backoff.maxAttempts ∧
            n.Repeats (n.retransmit id services).1 i e) ∨
          (e.backoff.maxAttempts ≤ e.backoff.attempts ∧
            n.GivesUp (n.retransmit id services).1 i e services)) := by
  unfold retransmit
  simp only
  split
  · next absent =>
    refine .inl ⟨fun e member same => ?_, rfl⟩
    rw [List.getElem?_eq_none_iff] at absent
    have inside := List.findIdx_lt_length_of_exists
      (p := fun s : Unacknowledged => s.packet.id == id) ⟨e, member, by simpa using same⟩
    omega
  · next e found =>
    have same : e.packet.id = id := by
      obtain ⟨inside, here⟩ := List.getElem?_eq_some_iff.mp found
      have := List.findIdx_getElem (p := fun s : Unacknowledged => s.packet.id == id)
        (w := inside)
      rw [here] at this
      simpa using this
    refine .inr ⟨_, e, found, same, ?_⟩
    by_cases spent : e.backoff.maxAttempts ≤ e.backoff.attempts
    · right
      refine ⟨spent, ?_⟩
      simp only [Backoff.nextAttempt, if_pos spent]
      exact giveUp_givesUp _ _ _ _
    · left
      refine ⟨Nat.lt_of_not_le spent, ?_⟩
      simp only [Backoff.nextAttempt, if_neg spent]
      exact repeatMessage_repeats _ _ _ _

end Node

/-! ## The cases -/

namespace Operation

/-- What an operation does to the history. -/
inductive Effect (n n' : Node) (op : Operation) : Prop
  | grows (grows : n.Grows n')
      (unanswered : ∀ e ∈ n.radio.unacknowledged, ¬ op.Answers n.radio.self e)
      (unfired : ∀ e ∈ n.radio.unacknowledged, op.fired ≠ some e.packet.id)
  | duplicate {t : Transmission} (repeats : op.RepeatsAnswer n t)
      (grows : n.radio.Extends n'.radio [t] []) (expiries : n'.expiries = n.expiries)
      (unanswered : ∀ e ∈ n.radio.unacknowledged, ¬ op.Answers n.radio.self e)
  | answered {i : Nat} {e : Unacknowledged} (found : n.radio.unacknowledged[i]? = some e)
      (answers : op.Answers n.radio.self e)
      (grows : Node.Grows { n with radio := n.radio.without i } n')
  | repeated {i : Nat} {e : Unacknowledged} {services : List Service}
      (found : n.radio.unacknowledged[i]? = some e)
      (fires : op = fire (.retransmit e.packet.id) services)
      (more : e.backoff.attempts < e.backoff.maxAttempts) (repeats : n.Repeats n' i e)
  | gaveUp {i : Nat} {e : Unacknowledged} {services : List Service}
      (found : n.radio.unacknowledged[i]? = some e)
      (fires : op = fire (.retransmit e.packet.id) services)
      (spent : e.backoff.maxAttempts ≤ e.backoff.attempts) (givesUp : n.GivesUp n' i e services)

theorem effect_of_grows {n n' : Node} {op : Operation} (grows : n.Grows n')
    (other : ∀ peer bytes services, op ≠ receive peer bytes services)
    (unfired : op.fired = none) : op.Effect n n' := by
  refine .grows grows (fun e _ answers => ?_) fun e _ fires => ?_
  · obtain ⟨bytes, services, -, same, -⟩ := answers
    exact other _ _ _ same
  · rw [unfired] at fires
    cases fires

theorem apply_effect (op : Operation) (n : Node)
    (unasked : ∀ event ∈ op.asked n, event.retransmits? = none) : op.Effect n (op.apply n) := by
  cases op with
  | receive peer bytes services =>
    rcases n.receive_cases peer bytes services unasked with
      ⟨i, e, found, answers, grows⟩ | ⟨unanswered, grows | ⟨t, repeats, grows, expiries⟩⟩
    · exact .answered found answers grows
    · exact .grows grows unanswered fun e _ fires => by cases fires
    · exact .duplicate repeats grows expiries unanswered
  | fire event services =>
    cases event with
    | maxAge id =>
      have told := Service.forEach_tends (fun s n => s.timerFires_tends n id) services n
      exact effect_of_grows told.grows (by simp) rfl
    | retransmit id =>
      rcases n.retransmit_cases id services with ⟨absent, same⟩ | ⟨i, e, found, rfl, cases⟩
      · refine .grows ?_ (fun e _ answers => ?_) fun e member fires => ?_
        · change n.Grows (n.retransmit id services).1
          rw [same]
          exact Node.Grows.refl n
        · obtain ⟨_, _, _, same, -⟩ := answers
          cases same
        · cases fires
          exact absent e member rfl
      · rcases cases with ⟨more, repeats⟩ | ⟨spent, givesUp⟩
        · exact .repeated found rfl more repeats
        · exact .gaveUp found rfl spent givesUp
  | perform action m =>
    exact effect_of_grows (n.perform_grows action m fun event asked =>
      unasked event (Option.mem_toList.mpr asked)) (by simp) rfl
  | call service c =>
    exact effect_of_grows (Node.grows_of_radio (service.call_sends n.radio c).grows) (by simp) rfl
  | create spec =>
    exact effect_of_grows (Node.grows_of_radio (Service.create_idle n.radio spec).toQuiet.grows)
      (by simp) rfl
  | schedule after event =>
    cases event with
    | retransmit id => cases unasked _ (List.mem_singleton_self _)
    | maxAge id =>
      exact effect_of_grows (Node.grows_of_radio (n.radio.schedule_quiet after id).grows)
        (by simp) rfl
  | drawIds times =>
    exact effect_of_grows (Node.grows_of_radio (n.radio.drawIds_idle _ times).toQuiet.grows)
      (by simp) rfl
  | drawTokens times =>
    exact effect_of_grows (Node.grows_of_radio (n.radio.drawTokens_idle _ times).toQuiet.grows)
      (by simp) rfl
  | setOutcomes outcomes =>
    have quiet : n.radio.Quiet { n.radio with network := { n.radio.network with outcomes } } :=
      ⟨rfl, rfl, rfl, rfl, rfl⟩
    exact effect_of_grows (Node.grows_of_radio quiet.grows) (by simp) rfl
  | setClock ticks broken =>
    have quiet : n.radio.Quiet { n.radio with clock := { n.radio.clock with ticks, broken } } :=
      ⟨rfl, rfl, rfl, rfl, rfl⟩
    exact effect_of_grows (Node.grows_of_radio quiet.grows) (by simp) rfl

end Operation
end CoapNode
