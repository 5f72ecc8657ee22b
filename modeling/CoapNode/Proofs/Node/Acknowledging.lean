import CoapNode.Proofs.Node.Remembering
/-! How a request is acknowledged. A response to a confirmable request rides on its
acknowledgement as long as there was none; the flag that tells so is carried from one answer to
the next, and the node's own empty acknowledgement comes last, if it is still missing. -/
namespace CoapNode

def JournalEntry.action? : JournalEntry → Option Action
  | .acted action _ _ _ => some action
  | _ => none

def Inbound.isHandled : Inbound → Bool
  | .handled => true
  | _ => false

/-- The acknowledgements of a message among what got through. -/
def Received.acknowledgements (m : Received) (sent : List Delivery) : List Delivery :=
  sent.filter (·.acknowledges m.peer m.packet.id)

namespace Node

/-- What got through to the network since. -/
def deliveredSince (n' n : Node) : List Delivery :=
  n'.radio.network.delivered.drop n.radio.network.delivered.length

/-- What was offered to the network since, accepted or not. -/
def offeredSince (n' n : Node) : List Transmission :=
  n'.radio.transmissions.drop n.radio.transmissions.length

/-- What handlers did since. -/
def performedSince (n' n : Node) : List Action :=
  (n'.journal.drop n.journal.length).filterMap (·.action?)

end Node

/-! ## One message in the hands of services -/

namespace Received

/-- How many responses may still ride on the acknowledgement of the message. -/
def riders (m : Received) : Nat := if m.acknowledged then 0 else 1

/-- What became of a confirmable message, as far as acknowledging it goes: it counts as
acknowledged when an acknowledgement got through, and from then on no response rides on one. -/
structure Acknowledged (m m' : Received) (sent : List Delivery) (deeds : List Deed) : Prop where
  keeps : m.acknowledged = true → m'.acknowledged = true
  counts : m.acknowledgements sent ≠ [] → m'.acknowledged = true
  only : m'.acknowledged = true → m.acknowledged = true ∨ m.acknowledgements sent ≠ []
  responses : (m.acknowledgements sent).countP (·.carriesResponse m.packet.id) ≤ m.riders
  single : .acknowledged ∉ deeds → (m.acknowledgements sent).length ≤ m.riders

variable {m m' m'' : Received} {sent sent' : List Delivery} {deeds deeds' : List Deed}

theorem Acknowledged.refl (m : Received) (deeds : List Deed) : m.Acknowledged m [] deeds := by
  constructor <;> simp [acknowledgements]

theorem riders_trans {spent spent' : Nat} (keeps : m.acknowledged = true → m'.acknowledged = true)
    (first : spent ≤ m.riders) (second : spent' ≤ m'.riders)
    (unspent : m'.acknowledged = false → spent = 0) : spent + spent' ≤ m.riders := by
  cases later : m'.acknowledged with
  | true =>
    simp only [riders, later, if_pos] at second
    omega
  | false =>
    have before : m.acknowledged = false := by
      by_contra already
      simp [keeps (by simpa using already)] at later
    have none := unspent later
    simp only [riders, later, before, none] at second ⊢
    omega

theorem Acknowledged.trans (h : m.Acknowledged m' sent deeds)
    (h' : m'.Acknowledged m'' sent' deeds') (peer : m'.peer = m.peer)
    (packet : m'.packet = m.packet) : m.Acknowledged m'' (sent ++ sent') (deeds ++ deeds') := by
  have whole : m.acknowledgements (sent ++ sent') =
      m.acknowledgements sent ++ m'.acknowledgements sent' := by
    simp [acknowledgements, peer, packet]
  have earlier : m'.acknowledged = false → m.acknowledgements sent = [] := by
    intro unacknowledged
    by_contra some
    simp [h.counts some] at unacknowledged
  refine ⟨fun already => h'.keeps (h.keeps already), ?_, ?_, ?_, ?_⟩
  · intro some
    rw [whole, ne_eq, List.append_eq_nil_iff, not_and_or] at some
    rcases some with first | second
    · exact h'.keeps (h.counts first)
    · exact h'.counts second
  · intro acknowledged
    rw [whole, ne_eq, List.append_eq_nil_iff, not_and_or]
    rcases h'.only acknowledged with before | second
    · rcases h.only before with already | first
      · exact .inl already
      · exact .inr (.inl first)
    · exact .inr (.inr second)
  · rw [whole, List.countP_append]
    apply riders_trans h.keeps h.responses (packet ▸ h'.responses)
    intro unacknowledged
    simp [earlier unacknowledged]
  · intro none
    simp only [List.mem_append, not_or] at none
    rw [whole, List.length_append]
    apply riders_trans h.keeps (h.single none.1) (h'.single none.2)
    intro unacknowledged
    simp [earlier unacknowledged]

theorem acknowledges_datagram (m : Received) (p : Message) :
    Delivery.acknowledges ⟨m.peer, p.datagram⟩ m.peer m.packet.id = true ↔
      p.kind = .acknowledgement ∧ p.id = m.packet.id := by
  simp [Delivery.acknowledges, head?_datagram]

theorem acknowledgements_response {response : Message} (addressed : m.Addresses response)
    (kind : m.packet.kind = .confirmable) :
    m.acknowledgements [⟨m.peer, response.datagram⟩] =
        (if m.acknowledged then [] else [⟨m.peer, response.datagram⟩]) ∧
      (response.kind = .acknowledgement ↔ m.acknowledged = false) := by
  have rides : response.kind = .acknowledgement ↔ m.acknowledged = false := by
    rw [addressed.kind]
    cases acknowledged : m.acknowledged <;> simp [answerKind, kind, acknowledged]
  refine ⟨?_, rides⟩
  cases acknowledged : m.acknowledged with
  | true =>
    have apart : response.kind ≠ .acknowledgement := by simp [rides, acknowledged]
    simp [acknowledgements, acknowledges_datagram, apart]
  | false =>
    have whole : response.kind = .acknowledgement := rides.mpr acknowledged
    simp [acknowledgements, acknowledges_datagram, whole, addressed.id whole]

theorem acknowledgements_empty (m : Received) :
    m.acknowledgements [⟨m.peer, (emptyMessage .acknowledgement m.packet.id).datagram⟩] =
      [⟨m.peer, (emptyMessage .acknowledgement m.packet.id).datagram⟩] := by
  simp only [acknowledgements, List.filter_eq_self, List.mem_singleton]
  rintro d rfl
  exact (acknowledges_datagram m _).mpr ⟨rfl, rfl⟩

end Received

namespace Radio

variable {r s : Radio} {m m' : Received} {deeds : List Deed}

theorem Responds.acknowledged (h : r.Responds m s m') (kind : m.packet.kind = .confirmable) :
    ∃ sent, s.network.delivered = r.network.delivered ++ sent ∧ m.Acknowledged m' sent [] := by
  cases h with
  | failed passes => exact ⟨_, passes.delivered, .refl m []⟩
  | @sent s response passes addressed =>
    obtain ⟨listed, rides⟩ := Received.acknowledgements_response addressed kind
    refine ⟨[⟨m.peer, response.datagram⟩], ?_, ?_⟩
    · rw [(s.storeResponse_frame _ _ _).1, passes.delivered]
      rfl
    · cases acknowledged : m.acknowledged with
      | true => constructor <;> simp [listed, acknowledged]
      | false =>
        have kind := rides.mpr acknowledged
        constructor <;> simp [listed, acknowledged, kind, Received.riders, List.countP_singleton]
        split <;> omega

theorem acknowledge_acknowledged (r : Radio) (m : Received)
    (again : m.acknowledged = true → .acknowledged ∈ deeds) :
    ∃ sent, (r.acknowledge m).1.network.delivered = r.network.delivered ++ sent ∧
      m.Acknowledged (r.acknowledge m).2.1 sent deeds := by
  obtain ⟨passes, message⟩ := r.acknowledge_passes m
  refine ⟨_, passes.delivered, ?_⟩
  rw [message]
  cases taken : (r.acknowledge m).2.2.toBool with
  | false => simpa using Received.Acknowledged.refl m deeds
  | true =>
    cases acknowledged : m.acknowledged with
    | true =>
      constructor <;> simp [Received.acknowledgements_empty, Delivery.carriesResponse, acknowledged,
        again]
    | false =>
      constructor <;> simp [Received.acknowledgements_empty, Delivery.carriesResponse, acknowledged,
        Received.riders]

theorem Conduct.acknowledged (h : Conduct r m deeds s m') (kind : m.packet.kind = .confirmable)
    (only : ∀ deed ∈ deeds, deed = .acknowledged) :
    ∃ sent, s.network.delivered = r.network.delivered ++ sent ∧ m.Acknowledged m' sent deeds := by
  induction h with
  | @idle r s m still => exact ⟨[], by simp [still.network], .refl m []⟩
  | respond r m response => exact (r.respond_responds m response).acknowledged kind
  | acknowledge r m => exact r.acknowledge_acknowledged m (by simp)
  | markAnswered r m => exact ⟨[], by simp, by constructor <;> simp [Received.acknowledgements]⟩
  | mark | unmark | rewrite | send | schedule => simp at only
  | trans first _ one two =>
    simp only [List.mem_append] at only
    obtain ⟨peer, packet⟩ := first.message fun packet peer member => by
      cases only _ (.inl member)
    obtain ⟨sent, delivered, acknowledged⟩ := one kind fun deed member => only deed (.inl member)
    obtain ⟨sent', delivered', acknowledged'⟩ :=
      two (packet ▸ kind) fun deed member => only deed (.inr member)
    refine ⟨sent ++ sent', by rw [delivered', delivered, List.append_assoc], ?_⟩
    exact acknowledged.trans acknowledged' peer packet

structure Tells (r s : Radio) (peer : NodeId) : Prop where
  offered : ∃ offered, s.transmissions = r.transmissions ++ offered ∧
    ∀ t ∈ offered, t.peer = peer ∧ t.packet.kind = .nonConfirmable
  delivered : ∃ sent, s.network.delivered = r.network.delivered ++ sent ∧
    ∀ d ∈ sent, d.peer = peer ∧ d.isKind .nonConfirmable = true

theorem Tells.trans {t : Radio} {peer : NodeId} (h : r.Tells s peer) (h' : s.Tells t peer) :
    r.Tells t peer := by
  obtain ⟨⟨offered, recorded, told⟩, sent, delivered, heard⟩ := h
  obtain ⟨⟨offered', recorded', told'⟩, sent', delivered', heard'⟩ := h'
  refine ⟨⟨offered ++ offered', by rw [recorded', recorded, List.append_assoc], ?_⟩,
    sent ++ sent', by rw [delivered', delivered, List.append_assoc], ?_⟩
  · intro x member
    exact (List.mem_append.mp member).elim (told x) (told' x)
  · intro d member
    exact (List.mem_append.mp member).elim (heard d) (heard' d)

theorem Passes.tells {peer : NodeId} {packet : Message} {taken : Bool}
    (h : r.Passes s peer packet taken) (kind : packet.kind = .nonConfirmable) :
    r.Tells s peer := by
  obtain ⟨offered, recorded, same⟩ := h.transmissions
  refine ⟨⟨offered, recorded, ?_⟩, _, h.delivered, ?_⟩
  · intro t member
    obtain ⟨peer', packet'⟩ := same t member
    exact ⟨peer', packet' ▸ kind⟩
  · intro d member
    cases taken with
    | false => simp at member
    | true =>
      simp only [if_pos, List.mem_singleton] at member
      simp [member, Delivery.isKind, head?_datagram, kind]

theorem Responds.tells (h : r.Responds m s m') (kind : m.packet.kind = .nonConfirmable) :
    r.Tells s m.peer := by
  have answer : m.answerKind = .nonConfirmable := by simp [Received.answerKind, kind]
  cases h with
  | failed passes addressed => exact passes.tells (addressed.kind.trans answer)
  | @sent s response passes addressed =>
    obtain ⟨network, transmissions⟩ := s.storeResponse_frame m.peer m.packet.id response
    obtain ⟨offered, delivered⟩ := passes.tells (addressed.kind.trans answer)
    exact ⟨transmissions ▸ offered, network ▸ delivered⟩

theorem Idle.tells (h : r.Idle s) (peer : NodeId) : r.Tells s peer :=
  ⟨⟨[], by simp [h.transmissions]⟩, [], by simp [h.network]⟩

theorem Conduct.tells (h : Conduct r m deeds s m') (kind : m.packet.kind = .nonConfirmable)
    (none : deeds = []) : r.Tells s m.peer := by
  induction h with
  | idle still => exact still.tells _
  | respond r m response => exact (r.respond_responds m response).tells kind
  | markAnswered r => exact (Idle.refl r).tells _
  | acknowledge | mark | unmark | rewrite | send | schedule => cases none
  | trans first _ one two =>
    obtain ⟨none, none'⟩ := List.append_eq_nil_iff.mp none
    obtain ⟨peer, packet⟩ := first.message (by simp [none])
    rw [peer] at two
    exact (one kind none).trans (two (packet ▸ kind) none')

end Radio

/-! ## One request -/

theorem Radio.Tells.since {n n' : Node} {peer : NodeId} (h : n.radio.Tells n'.radio peer) :
    (∀ t ∈ n'.offeredSince n, t.peer = peer ∧ t.packet.kind = .nonConfirmable) ∧
      ∀ d ∈ n'.deliveredSince n, d.peer = peer ∧ d.isKind .nonConfirmable = true := by
  obtain ⟨⟨offered, recorded, told⟩, sent, delivered, heard⟩ := h
  simp only [Node.offeredSince, Node.deliveredSince, recorded, delivered, List.drop_left]
  exact ⟨told, heard⟩

theorem JournalEntry.action_of_deed {e : JournalEntry} {deed : Deed} (did : e.deed? = some deed) :
    ∃ a, e.action? = some a ∧ a.answers = false ∧ (a = .acknowledge ↔ deed = .acknowledged) := by
  cases e with
  | acted a result acknowledged answered =>
    cases a with
    | acknowledge | markAcknowledged | unmark | rewrite | schedule =>
      cases did
      exact ⟨_, rfl, rfl, by simp⟩
    | send peer mode packet =>
      cases result with
      | attempted result =>
        cases did
        exact ⟨_, rfl, rfl, by simp⟩
      | _ => cases did
    | _ => cases did
  | _ => cases did

namespace Node

variable {n n' : Node} {m m' : Received} {peer : NodeId} {bytes : List UInt8} {packet : Message}

theorem Serves.performed (h : n.Serves m n' m') :
    ∃ deeds, Radio.Conduct n.radio m deeds n'.radio m' ∧ ∀ deed ∈ deeds,
      ∃ a ∈ n'.performedSince n, a.answers = false ∧ (a = .acknowledge ↔ deed = .acknowledged) := by
  obtain ⟨entries, journal, -, conduct⟩ := h
  refine ⟨_, conduct, ?_⟩
  intro deed member
  obtain ⟨e, listed, did⟩ := List.mem_filterMap.mp member
  obtain ⟨a, acted, plain, same⟩ := e.action_of_deed did
  refine ⟨a, ?_, plain, same⟩
  rw [performedSince, journal, List.drop_left]
  exact List.mem_filterMap.mpr ⟨e, listed, acted⟩

theorem finishRequest_acknowledged (n : Node) {request : Message}
    (kind : request.kind = .confirmable) (done : (n.finishRequest request m).2 = .ok .handled) :
    ∃ m' sent, (n.finishRequest request m).1.radio.network.delivered =
        n.radio.network.delivered ++ sent ∧
      m.Acknowledged m' sent [] ∧ m'.acknowledged = true := by
  cases already : m.acknowledged with
  | true =>
    refine ⟨m, [], ?_, .refl m [], already⟩
    simp [finishRequest, kind, already]
  | false =>
    have first : m.acknowledged = true → Deed.acknowledged ∈ [] := by simp [already]
    obtain ⟨sent, delivered, acknowledged⟩ := n.radio.acknowledge_acknowledged m first
    have message := (n.radio.acknowledge_passes m).2
    simp only [finishRequest, kind, already, decide_true, Bool.not_false, Bool.and_self, if_pos]
      at done ⊢
    generalize n.radio.acknowledge m = outcome at delivered acknowledged message done ⊢
    obtain ⟨radio, m', refused | taken⟩ := outcome
    · cases done
    · have counted := congrArg (fun m : Received => m.acknowledged) message
      exact ⟨m', sent, delivered, acknowledged, by simpa [Except.toBool] using counted⟩

theorem receiveRequest_acknowledged (n : Node) (services : List Service)
    (kind : m.packet.kind = .confirmable) (fresh : m.acknowledged = false)
    (handled : (n.receiveRequest m services).2.2 = .ok .handled) :
    let n' := (n.receiveRequest m services).1
    (∀ a ∈ n'.performedSince n, a.answers = true ∨ a = .acknowledge) →
      let acks := m.acknowledgements (n'.deliveredSince n)
      1 ≤ acks.length ∧ acks.countP (·.carriesResponse m.packet.id) ≤ 1 ∧
        (.acknowledge ∉ n'.performedSince n → acks.length = 1) := by
  obtain ⟨mid, m', serves, ⟨-, e, failed⟩ | ⟨node, result⟩⟩ := n.receiveRequest_cases m services
  · rw [failed] at handled
    cases handled
  rw [result] at handled
  intro n' polite acks
  have journal : n'.performedSince n = mid.performedSince n := by
    simp only [performedSince, n', node, finishRequest_journal]
  rw [journal] at polite ⊢
  obtain ⟨deeds, conduct, acted⟩ := serves.performed
  have only : ∀ deed ∈ deeds, deed = .acknowledged := by
    intro deed member
    obtain ⟨a, performed, plain, same⟩ := acted deed member
    rcases polite a performed with answers | acknowledges
    · simp [plain] at answers
    · exact same.mp acknowledges
  obtain ⟨peer, packet⟩ := conduct.message fun packet peer member => by cases only _ member
  obtain ⟨sent, delivered, first⟩ := conduct.acknowledged kind only
  obtain ⟨m'', sent', delivered', last, counted⟩ :=
    mid.finishRequest_acknowledged kind handled
  have whole := first.trans last peer packet
  have all : acks = m.acknowledgements (sent ++ sent') := by
    simp only [acks, deliveredSince, n', node, delivered', delivered, List.append_assoc,
      List.drop_left]
  have least : acks ≠ [] := by
    rw [all]
    rcases whole.only counted with already | some
    · simp [fresh] at already
    · exact some
  have responses := whole.responses
  rw [← all, Received.riders, fresh] at responses
  refine ⟨List.length_pos_iff.mpr least, responses, ?_⟩
  intro none
  have undone : .acknowledged ∉ deeds ++ [] := by
    intro member
    obtain ⟨a, performed, -, same⟩ := acted .acknowledged (by simpa using member)
    exact none (same.mpr rfl ▸ performed)
  have most := whole.single undone
  rw [← all, Received.riders, fresh] at most
  exact Nat.le_antisymm most (List.length_pos_iff.mpr least)

theorem receiveRequest_tells (n : Node) (services : List Service)
    (kind : m.packet.kind = .nonConfirmable) :
    let n' := (n.receiveRequest m services).1
    (∀ a ∈ n'.performedSince n, a.answers = true) → n.radio.Tells n'.radio m.peer := by
  obtain ⟨mid, m', serves, outcome⟩ := n.receiveRequest_cases m services
  obtain ⟨deeds, conduct, acted⟩ := serves.performed
  have unfinished : mid.finishRequest m.packet m' = (mid, .ok .handled) := by
    simp [finishRequest, kind]
  have node : (n.receiveRequest m services).1 = mid := by
    rcases outcome with ⟨node, -⟩ | ⟨node, -⟩
    · exact node
    · rw [node, unfinished]
  intro n' polite
  simp only [n', node] at polite ⊢
  apply conduct.tells kind
  apply List.eq_nil_iff_forall_not_mem.mpr
  intro deed member
  obtain ⟨a, performed, plain, -⟩ := acted deed member
  simp [polite a performed] at plain

theorem not_isEmpty_of_isRequest (request : packet.isRequest = true) :
    packet.code.isEmpty = false := by
  by_contra empty
  simp only [Code.isEmpty, Bool.not_eq_false, beq_iff_eq] at empty
  simp [Packet.isRequest, empty, Code.isRequest, Code.empty, Code.toByte] at request

theorem receive_request (services : List Service) (other : peer ≠ n.radio.self)
    (read : Packet.decode 128 bytes = .ok packet) (kind : packet.kind.original = true)
    (request : packet.isRequest = true) (unknown : (peer, packet.id) ∉ n.radio.recent) :
    n.receive peer bytes services =
      (n.entered peer packet).receiveRequest (.fresh packet peer) services := by
  rw [receive_new n services other read kind unknown]
  simp [receiveNew, not_isEmpty_of_isRequest request, request]

/-- A confirmable request that was handled is acknowledged, and one response at most rides on
that; it is acknowledged once unless a handler did so by hand. In answer to a request that is not
confirmable nothing is sent but to its peer, and nothing that is confirmable or acknowledges. -/
theorem request_acknowledged_once (n : Node) (peer : NodeId) (bytes : List UInt8)
    (services : List Service) (packet : Message) (other : peer ≠ n.radio.self)
    (read : Packet.decode 128 bytes = .ok packet) (request : packet.isRequest = true)
    (unknown : (peer, packet.id) ∉ n.radio.recent) :
    let n' := (n.receive peer bytes services).1
    (packet.kind = .confirmable →
      (n.receive peer bytes services).2.2 = .ok .handled →
      (∀ a ∈ n'.performedSince n, a.answers = true ∨ a = .acknowledge) →
        let acks := (n'.deliveredSince n).filter (·.acknowledges peer packet.id)
        1 ≤ acks.length ∧ acks.countP (·.carriesResponse packet.id) ≤ 1 ∧
          (.acknowledge ∉ n'.performedSince n → acks.length = 1)) ∧
    (packet.kind = .nonConfirmable → (∀ a ∈ n'.performedSince n, a.answers = true) →
      (∀ t ∈ n'.offeredSince n, t.peer = peer ∧ t.packet.kind = .nonConfirmable) ∧
        ∀ d ∈ n'.deliveredSince n, d.peer = peer ∧ d.isKind .nonConfirmable = true) := by
  intro n'
  have received : packet.kind.original = true → n.receive peer bytes services =
      (n.entered peer packet).receiveRequest (.fresh packet peer) services :=
    fun kind => receive_request services other read kind request unknown
  refine ⟨?_, ?_⟩
  · intro kind handled polite
    have received := received (by rw [kind]; rfl)
    simp only [n'] at polite ⊢
    rw [received] at handled polite ⊢
    exact receiveRequest_acknowledged (m := .fresh packet peer) _ services kind rfl handled polite
  · intro kind polite
    have received := received (by rw [kind]; rfl)
    simp only [n'] at polite ⊢
    rw [received] at polite ⊢
    exact (receiveRequest_tells (m := .fresh packet peer) (n.entered peer packet) services kind
      polite).since

theorem eq_handled {result : Except RuntimeError Inbound}
    (handled : result.toOption.any (·.isHandled) = true) : result = .ok .handled := by
  cases result with
  | error e => cases handled
  | ok inbound =>
    cases inbound with
    | handled => rfl
    | _ => cases handled

def serving : Node := ((Run.start 0 {} {}).step (.create (.plain "a" (.fixed [])))).node

def servants (h : Handler) : List Service := [.plain ⟨"a", some ⟨0⟩, false, h⟩]

set_option maxRecDepth 10000 in
/-- A handler that acknowledges by hand and answers afterwards, and one that answers a request
that is not confirmable. -/
theorem request_acknowledged_by_hand :
    let hasty := servants (.fixed [.acknowledge, .reply Code.content []])
    let n := (serving.receive 1 [0x41, 1, 0, 9, 0x91, 0x61] hasty).1
    let plain := (serving.receive 1 [0x51, 1, 0, 9, 0x91, 0x61] (servants (.fixed [.echoPath]))).1
    1 ≤ ((n.deliveredSince serving).filter (·.acknowledges 1 ⟨9⟩)).length ∧
      ((n.deliveredSince serving).filter (·.acknowledges 1 ⟨9⟩)).countP
        (·.carriesResponse ⟨9⟩) ≤ 1 ∧
      ∀ t ∈ plain.offeredSince serving, t.peer = 1 ∧ t.packet.kind = .nonConfirmable := by
  intro hasty n plain
  obtain ⟨packet, read, head⟩ := exists_read [0x41, 1, 0, 9, 0x91, 0x61]
    (fun p => p.kind == .confirmable && p.isRequest && p.id == ⟨9⟩) (by decide +kernel)
  obtain ⟨packet', read', head'⟩ := exists_read [0x51, 1, 0, 9, 0x91, 0x61]
    (fun p => p.kind == .nonConfirmable && p.isRequest) (by decide +kernel)
  simp only [Bool.and_eq_true, beq_iff_eq] at head head'
  obtain ⟨⟨kind, request⟩, id⟩ := head
  obtain ⟨kind', request'⟩ := head'
  have unknown : ∀ key, key ∉ serving.radio.recent := by
    intro key
    simp [show serving.radio.recent = [] by decide +kernel]
  have handled : (serving.receive 1 [0x41, 1, 0, 9, 0x91, 0x61] hasty).2.2 = .ok .handled :=
    eq_handled (by decide +kernel)
  have once := (request_acknowledged_once serving 1 _ hasty packet (by decide +kernel) read request
    (unknown _)).1 kind handled (by decide +kernel)
  have told := (request_acknowledged_once serving 1 _ (servants (.fixed [.echoPath])) packet'
    (by decide +kernel) read' request' (unknown _)).2 kind' (by decide +kernel)
  rw [id] at once
  exact ⟨once.1, once.2.1, told.1⟩

end Node
end CoapNode
