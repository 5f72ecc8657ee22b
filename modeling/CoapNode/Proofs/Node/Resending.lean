import CoapNode.Proofs.Node.Acknowledging
import CoapNode.Proofs.Node.AtMostOnce
/-! How a duplicate is answered. The answer is rebuilt from what is remembered: the response that
was stored last, or an empty acknowledgement when there is none. What was sent at first is just
that, as long as one datagram was sent and it was for the message. -/
namespace CoapNode

/-- What a remembered message is answered with when it comes again. -/
def Remembered.answer (e : Remembered) : Message :=
  e.response.getD (emptyMessage .acknowledgement e.id)

/-- Whether a message of a handler's own got through. -/
def Deed.reached : Deed → Bool
  | .sent taken => taken
  | _ => false

/-! ## One message in the hands of services -/

namespace Radio

variable {r s t : Radio} {m m' : Received} {deeds : List Deed} {sent sent' : List Delivery}
  {peer : NodeId} {id : MessageId}

/-- What was sent in answer to a message, against what is remembered of it: if it is one datagram,
that is what a duplicate will be answered with. -/
inductive Traces (r : Radio) (peer : NodeId) (id : MessageId) (s : Radio) : List Delivery → Prop
  | silent (same : s.remembered = r.remembered) : Traces r peer id s []
  | response {response : Message}
      (stored : (peer, id) ∈ r.recent → ⟨peer, id, some response⟩ ∈ s.remembered) :
      Traces r peer id s [⟨peer, response.datagram⟩]
  | empty (same : s.remembered = r.remembered) :
      Traces r peer id s [⟨peer, (emptyMessage .acknowledgement id).datagram⟩]
  | several {sent : List Delivery} (more : 2 ≤ sent.length) : Traces r peer id s sent

theorem Traces.trans (h : r.Traces peer id s sent) (h' : s.Traces peer id t sent')
    (same : s.recent = r.recent) : r.Traces peer id t (sent ++ sent') := by
  cases h with
  | silent first =>
    rw [List.nil_append]
    cases h' with
    | silent second => exact .silent (second.trans first)
    | response stored => exact .response (same ▸ stored)
    | empty second => exact .empty (second.trans first)
    | several more => exact .several more
  | response stored =>
    cases h' with
    | silent second => exact .response (second ▸ stored)
    | response | empty => exact .several (by simp)
    | several more => exact .several (by simp; omega)
  | empty first =>
    cases h' with
    | silent second => exact .empty (second.trans first)
    | response | empty => exact .several (by simp)
    | several more => exact .several (by simp; omega)
  | several more => exact .several (by simp; omega)

theorem storeResponse_mem (r : Radio) (response : Message) (known : (peer, id) ∈ r.recent) :
    ⟨peer, id, some response⟩ ∈ (r.storeResponse peer id response).remembered := by
  simp only [storeResponse]
  split
  · next absent =>
    rw [List.findIdx?_eq_none_iff] at absent
    obtain ⟨e, member, same⟩ := List.mem_map.mp known
    cases same
    simpa using absent e member
  · next i found =>
    obtain ⟨inside, same, -⟩ := List.findIdx?_eq_some_iff_getElem.mp found
    simp only [Bool.and_eq_true, beq_iff_eq] at same
    apply List.mem_of_getElem? (i := i)
    simp [List.getElem?_eq_getElem inside, same]

theorem Responds.traces (h : r.Responds m s m') :
    ∃ sent, s.network.delivered = r.network.delivered ++ sent ∧
      r.Traces m.peer m.packet.id s sent := by
  cases h with
  | failed passes => exact ⟨_, passes.delivered, .silent passes.remembered⟩
  | @sent s response passes addressed =>
    refine ⟨[⟨m.peer, response.datagram⟩], ?_, .response ?_⟩
    · rw [(s.storeResponse_frame _ _ _).1, passes.delivered]
      rfl
    · intro known
      apply s.storeResponse_mem
      simpa only [recent, passes.remembered] using known

theorem acknowledge_traces (r : Radio) (m : Received) :
    ∃ sent, (r.acknowledge m).1.network.delivered = r.network.delivered ++ sent ∧
      r.Traces m.peer m.packet.id (r.acknowledge m).1 sent := by
  have passes := (r.acknowledge_passes m).1
  refine ⟨_, passes.delivered, ?_⟩
  cases (r.acknowledge m).2.2.toBool with
  | false => exact .silent passes.remembered
  | true => exact .empty passes.remembered

/-- As long as no message of its own gets through and the message keeps its key, what a service
sends is the answer. -/
theorem Conduct.traces (h : Conduct r m deeds s m')
    (unsent : ∀ deed ∈ deeds, deed.reached = false)
    (keeps : ∀ key ∈ deeds.filterMap (·.rekeyed?), key = m.key) :
    ∃ sent, s.network.delivered = r.network.delivered ++ sent ∧
      r.Traces m.peer m.packet.id s sent := by
  induction h with
  | idle still => exact ⟨[], by simp [still.network], .silent still.remembered⟩
  | respond r m response => exact (r.respond_responds m response).traces
  | acknowledge r m => exact r.acknowledge_traces m
  | mark | markAnswered | unmark | rewrite => exact ⟨[], by simp, .silent rfl⟩
  | schedule => exact ⟨[], (List.append_nil _).symm, .silent rfl⟩
  | send r m peer mode packet =>
    obtain ⟨_, passes⟩ := r.dispatch_passes peer mode packet
    have refused : (r.dispatch peer mode packet).2.toBool = false :=
      unsent _ (List.mem_singleton.mpr rfl)
    exact ⟨[], by simp [passes.delivered, refused], .silent passes.remembered⟩
  | trans first _ one two =>
    simp only [List.filterMap_append, List.mem_append] at unsent keeps
    have same := first.key.elim id fun rekeyed => keeps _ (.inl rekeyed)
    obtain ⟨sent, delivered, traces⟩ := one (fun deed member => unsent deed (.inl member))
      fun key member => keeps key (.inl member)
    obtain ⟨sent', delivered', traces'⟩ := two (fun deed member => unsent deed (.inr member))
      fun key member => same ▸ keeps key (.inr member)
    obtain ⟨peer, id⟩ := Prod.mk.inj same
    rw [peer, id] at traces'
    refine ⟨sent ++ sent', by rw [delivered', delivered, List.append_assoc], ?_⟩
    exact traces.trans traces' first.recalls.recent

theorem Responds.counted (h : r.Responds m s m') :
    ∃ sent, s.network.delivered = r.network.delivered ++ sent ∧
      m'.acknowledged.toNat ≤ sent.length + m.acknowledged.toNat := by
  cases h with
  | failed passes => exact ⟨_, passes.delivered, Nat.le_add_left _ _⟩
  | @sent s response passes =>
    refine ⟨[⟨m.peer, response.datagram⟩], ?_, ?_⟩
    · rw [(s.storeResponse_frame _ _ _).1, passes.delivered]
      rfl
    · have few := Bool.toNat_le (m.acknowledged || response.kind == .acknowledgement)
      simp only [List.length_singleton]
      omega

/-- As long as a message is not just counted as acknowledged, it is acknowledged by a datagram,
and every message of a handler's own is one more. -/
theorem Conduct.counted (h : Conduct r m deeds s m') (unmarked : .marked ∉ deeds) :
    ∃ sent, s.network.delivered = r.network.delivered ++ sent ∧
      deeds.countP (·.reached) + m'.acknowledged.toNat ≤ sent.length + m.acknowledged.toNat := by
  induction h with
  | idle still => exact ⟨[], by simp [still.network], by simp⟩
  | respond r m response => simpa using (r.respond_responds m response).counted
  | acknowledge r m =>
    obtain ⟨passes, message⟩ := r.acknowledge_passes m
    refine ⟨_, passes.delivered, ?_⟩
    rw [message]
    cases (r.acknowledge m).2.2.toBool <;> cases m.acknowledged <;> simp [Deed.reached]
  | mark => simp at unmarked
  | markAnswered | unmark | rewrite => exact ⟨[], by simp, by simp [Deed.reached]⟩
  | schedule => exact ⟨[], (List.append_nil _).symm, by simp [Deed.reached]⟩
  | send r m peer mode packet =>
    obtain ⟨_, passes⟩ := r.dispatch_passes peer mode packet
    refine ⟨_, passes.delivered, ?_⟩
    cases (r.dispatch peer mode packet).2.toBool <;> simp [Deed.reached]
  | trans first _ one two =>
    simp only [List.mem_append, not_or] at unmarked
    obtain ⟨sent, delivered, less⟩ := one unmarked.1
    obtain ⟨sent', delivered', less'⟩ := two unmarked.2
    refine ⟨sent ++ sent', by rw [delivered', delivered, List.append_assoc], ?_⟩
    simp only [List.countP_append, List.length_append]
    omega

theorem Traces.entry {x : Delivery} (h : r.Traces peer id s [x])
    (entered : ⟨peer, id, none⟩ ∈ r.remembered) :
    ∃ e ∈ s.remembered, e.key = (peer, id) ∧ x = ⟨peer, e.answer.datagram⟩ := by
  cases h with
  | @response response stored =>
    have known : (peer, id) ∈ r.recent := List.mem_map.mpr ⟨_, entered, rfl⟩
    refine ⟨⟨peer, id, some response⟩, stored known, rfl, ?_⟩
    simp [Remembered.answer]
  | empty same =>
    refine ⟨⟨peer, id, none⟩, same ▸ entered, rfl, ?_⟩
    simp [Remembered.answer]
  | several more => simp at more

end Radio

/-! ## One message -/

namespace Node

variable {n n' : Node} {m m' : Received} {peer : NodeId} {bytes : List UInt8} {packet : Message}
  {inbound : Inbound} {x : Delivery}

theorem deliveredSince_of_offered {r : Radio} {offered : List Transmission}
    (h : n.radio.Offered r offered) :
    deliveredSince { n with radio := r } n = offered.flatMap (·.delivered) := by
  obtain ⟨_, _, rfl⟩ := h
  simp [deliveredSince]

theorem finishRequest_traces (n : Node) (request : Message) (m : Received) (inbound : Inbound) :
    let n' := (n.finishRequest request m).1
    ∃ sent, n'.radio.network.delivered = n.radio.network.delivered ++ sent ∧
      n.radio.Traces m.peer m.packet.id n'.radio sent ∧
      (request.kind = .confirmable → (n.finishRequest request m).2 = .ok inbound →
        1 ≤ sent.length + m.acknowledged.toNat) := by
  by_cases unacknowledged : (request.kind = .confirmable && !m.acknowledged) = true
  · obtain ⟨sent, delivered, traces⟩ := n.radio.acknowledge_traces m
    have passes := (n.radio.acknowledge_passes m).1.delivered
    simp only [finishRequest, if_pos unacknowledged]
    generalize n.radio.acknowledge m = outcome at delivered traces passes ⊢
    obtain ⟨radio, m', refused | taken⟩ := outcome
    · exact ⟨sent, delivered, traces, fun _ done => by cases done⟩
    · have same : sent = _ := List.append_cancel_left (delivered.symm.trans passes)
      exact ⟨sent, delivered, traces, fun _ _ => by simp [same, Except.toBool]⟩
  · simp only [finishRequest, if_neg unacknowledged]
    refine ⟨[], by simp, .silent rfl, ?_⟩
    intro kind _
    have already : m.acknowledged = true := by simpa [kind] using unacknowledged
    simp [already]

theorem receiveRequest_traces (services : List Service) (kind : m.packet.kind = .confirmable)
    (fresh : m.acknowledged = false) (done : (n.receiveRequest m services).2.2 = .ok inbound) :
    let n' := (n.receiveRequest m services).1
    n'.deliveredSince n = [x] →
    ¬ (.marked ∈ n'.deedsSince n ∧ .sent true ∈ n'.deedsSince n) →
    (∀ key ∈ n'.rekeyedSince n, key = m.key) →
      n.radio.Traces m.peer m.packet.id n'.radio [x] := by
  obtain ⟨mid, m', ⟨entries, journal, -, conduct⟩, ⟨-, e, failed⟩ | ⟨node, result⟩⟩ :=
    n.receiveRequest_cases m services
  · rw [failed] at done
    cases done
  rw [result] at done
  intro n' one apart keeps
  obtain ⟨sent', delivered', last, answered⟩ := mid.finishRequest_traces m.packet m' inbound
  have deeds : n'.deedsSince n = entries.filterMap (·.deed?) := by
    simp only [deedsSince, n', node, finishRequest_journal, journal, List.drop_left]
  rw [rekeyedSince, deeds] at keeps
  rw [deeds] at apart
  generalize entries.filterMap (·.deed?) = deeds at conduct apart keeps
  have since : ∀ {sent}, mid.radio.network.delivered = n.radio.network.delivered ++ sent →
      sent ++ sent' = [x] := by
    intro sent delivered
    simpa only [deliveredSince, n', node, delivered', delivered, List.append_assoc, List.drop_left]
      using one
  -- A message of a handler's own would be a second datagram beside the acknowledgement.
  have unsent : ∀ deed ∈ deeds, deed.reached = false := by
    intro deed member
    by_contra reached
    obtain rfl : deed = .sent true := by cases deed <;> simp_all [Deed.reached]
    obtain ⟨sent, delivered, counted⟩ := conduct.counted fun marked => apart ⟨marked, member⟩
    have whole := congrArg List.length (since delivered)
    have some : 0 < deeds.countP (·.reached) := List.countP_pos_iff.mpr ⟨_, member, rfl⟩
    have least := answered kind done
    simp only [List.length_append, List.length_singleton] at whole
    simp only [fresh, Bool.toNat_false] at counted
    omega
  obtain ⟨sent, delivered, first⟩ := conduct.traces unsent keeps
  obtain ⟨peer, id⟩ := Prod.mk.inj (conduct.key.elim id (keeps _))
  rw [peer, id] at last
  have whole := first.trans last conduct.recalls.recent
  rw [since delivered] at whole
  simpa only [n', node] using whole

theorem receiveResponse_traces (n : Node) (kind : m.packet.kind = .confirmable) :
    ∃ sent, (n.receiveResponse m).1.radio.network.delivered = n.radio.network.delivered ++ sent ∧
      n.radio.Traces m.peer m.packet.id (n.receiveResponse m).1.radio sent := by
  obtain ⟨sent, delivered, traces⟩ := n.radio.acknowledge_traces m
  simp only [receiveResponse, if_pos kind]
  generalize n.radio.acknowledge m = outcome at delivered traces ⊢
  obtain ⟨radio, m', refused | taken⟩ := outcome <;> exact ⟨sent, delivered, traces⟩

theorem receiveNew_traces (services : List Service) (kind : packet.kind = .confirmable)
    (done : (n.receiveNew peer packet services).2.2 = .ok inbound) :
    let n' := (n.receiveNew peer packet services).1
    n'.deliveredSince n = [x] →
    ¬ (.marked ∈ n'.deedsSince n ∧ .sent true ∈ n'.deedsSince n) →
    (∀ key ∈ n'.rekeyedSince n, key = (peer, packet.id)) →
      n.radio.Traces peer packet.id n'.radio [x] ∨
        packet.code.isEmpty = true ∧ n'.radio.remembered = n.radio.remembered := by
  intro n' one apart keeps
  simp only [receiveNew] at done
  have outcome : n' = (n.receiveNew peer packet services).1 := rfl
  simp only [receiveNew] at outcome
  split at outcome
  · next ping =>
    obtain ⟨_, passes⟩ := n.receivePing_passes peer packet
    right
    refine ⟨ping, ?_⟩
    rw [outcome]
    exact passes.remembered
  next nonempty =>
  left
  rw [if_neg nonempty] at done
  split at outcome
  · next request =>
    rw [if_pos request] at done
    rw [outcome] at one apart keeps ⊢
    exact receiveRequest_traces (m := .fresh packet peer) services kind rfl done one apart keeps
  next other =>
  split at outcome
  · obtain ⟨sent, delivered, traces⟩ := n.receiveResponse_traces (m := .fresh packet peer) kind
    rw [outcome] at one ⊢
    simp only [deliveredSince, delivered, List.drop_left] at one
    exact one ▸ traces
  · rw [outcome] at one
    simp [deliveredSince] at one

/-- A new message that was answered with one datagram is remembered with just that, unless it was
a ping. -/
theorem receive_entry (services : List Service) (other : peer ≠ n.radio.self)
    (read : Packet.decode 128 bytes = .ok packet) (kind : packet.kind = .confirmable)
    (unknown : (peer, packet.id) ∉ n.radio.recent)
    (done : (n.receive peer bytes services).2.2 = .ok inbound) :
    let n' := (n.receive peer bytes services).1
    n'.deliveredSince n = [x] →
    ¬ (.marked ∈ n'.deedsSince n ∧ .sent true ∈ n'.deedsSince n) →
    (∀ key ∈ n'.rekeyedSince n, key = (peer, packet.id)) →
      ∃ e ∈ n'.radio.remembered, e.key = (peer, packet.id) ∧
        (x = ⟨peer, e.answer.datagram⟩ ∨ packet.code.isEmpty = true ∧ e.response = none) := by
  have received := receive_new n services other read (by rw [kind]; rfl) unknown
  intro n' one apart keeps
  have entered : ⟨peer, packet.id, none⟩ ∈ (n.entered peer packet).radio.remembered := by
    simp [Node.entered, Radio.remember]
  rw [received] at done
  simp only [n', received] at one apart keeps ⊢
  rcases receiveNew_traces services kind done one apart keeps with traces | ⟨ping, same⟩
  · obtain ⟨e, member, key, answer⟩ := traces.entry entered
    exact ⟨e, member, key, .inl answer⟩
  · exact ⟨_, same ▸ entered, rfl, .inr ⟨ping, rfl⟩⟩

end Node

/-! ## Runs -/

namespace Run

variable {s : Run} {e : Remembered} {key : NodeId × MessageId} {ops : List Operation}

def Retains (s : Run) (key : NodeId × MessageId) : List Operation → Prop
  | [] => key ∈ s.node.radio.recent
  | op :: rest =>
    key ∈ s.node.radio.recent ∧ key ∉ s.node.answering op ∧ (s.step op).Retains key rest

theorem Retains.known (h : s.Retains key ops) : key ∈ s.node.radio.recent := by
  cases ops with
  | nil => exact h
  | cons op rest => exact h.1

theorem Retains.entry (h : s.Retains e.key ops) (mindful : s.node.radio.Mindful)
    (member : e ∈ s.node.radio.remembered) : e ∈ (s.after ops).node.radio.remembered := by
  induction ops generalizing s with
  | nil => exact member
  | cons op rest ih =>
    obtain ⟨known, unanswered, later⟩ := h
    apply ih later (mindful_step mindful op)
    obtain ⟨e', member', same⟩ := List.mem_map.mp later.known
    rcases (op.apply_recalls s.node).entries e' member' with old | ⟨answered, -⟩
    · have before : e' ∈ s.node.radio.remembered := by
        rcases Radio.mem_enrol old with kept | ⟨new, -⟩
        · exact kept
        · exact absurd known (same ▸ arrival_unknown new)
      rwa [← mindful.unique before member same]
    · exact absurd (same ▸ answered) unanswered

theorem duplicate_answered {n : Node} {peer : NodeId} {bytes : List UInt8} {packet : Message}
    (mindful : n.radio.Mindful) (other : peer ≠ n.radio.self)
    (read : Packet.decode 128 bytes = .ok packet) (kind : packet.kind = .confirmable)
    (member : e ∈ n.radio.remembered) (same : e.key = (peer, packet.id))
    (accepts : n.radio.refusal = none) :
    ∃ last, n.Settles peer bytes last (.ok .duplicate) ∧
      last.deliveredSince n = [⟨peer, e.answer.datagram⟩] := by
  have known : (peer, packet.id) ∈ n.radio.recent := List.mem_map.mpr ⟨e, member, same⟩
  obtain ⟨seen, member', key, settled⟩ :=
    Node.receive_known other read (by rw [kind]; rfl) known
  obtain rfl := mindful.unique member' member (key.trans same.symm)
  obtain ⟨s, result, done, offered, came⟩ :=
    (n.heard peer packet).radio.receiveDuplicate_confirmable peer seen.response kind
      (mindful.answerable seen member)
  have accepts' : (n.heard peer packet).radio.refusal = none := accepts
  rcases came with ⟨-, rfl⟩ | ⟨code, refused, -⟩
  · rw [done] at settled
    refine ⟨_, settled, ?_⟩
    have heard := n.radio.note_offered .trace ("<- " ++ toString peer ++ " " ++ packet.summary)
    have id : seen.id = packet.id := (Prod.mk.inj same).2
    rw [Node.deliveredSince_of_offered (heard.trans offered)]
    simp [Transmission.delivered, accepts', Remembered.answer, id]
  · rw [accepts'] at refused
    cases refused

/-- A duplicate is answered as the message was at first, byte for byte, if that took one datagram
and no handler changed whose message it is; a ping that comes again gets an empty
acknowledgement. -/
theorem duplicate_answered_again (self : NodeId) (config : Config) (clock : Clock)
    (before : List Operation) (peer : NodeId) (bytes : List UInt8) (services : List Service)
    (packet : Message) (inbound : Inbound) (x : Delivery) (later : List Operation)
    (other : peer ≠ self) (read : Packet.decode 128 bytes = .ok packet)
    (kind : packet.kind = .confirmable) :
    let s := (start self config clock).after before
    let s' := s.step (.receive peer bytes services)
    let t := s'.after later
    (peer, packet.id) ∉ s.node.radio.recent →
    (s.node.receive peer bytes services).2.2 = .ok inbound →
    s'.node.deliveredSince s.node = [x] →
    ¬ (.marked ∈ s'.node.deedsSince s.node ∧ .sent true ∈ s'.node.deedsSince s.node) →
    (∀ key ∈ s'.node.rekeyedSince s.node, key = (peer, packet.id)) →
    s'.Retains (peer, packet.id) later →
    t.node.radio.refusal = none →
      ∃ last again, t.node.Settles peer bytes last (.ok .duplicate) ∧
        last.deliveredSince t.node = [again] ∧
        (again = x ∨ packet.code.isEmpty = true ∧
          again = ⟨peer, (emptyMessage .acknowledgement packet.id).datagram⟩) := by
  intro s s' t unknown done one apart keeps retains accepts
  have mindful : s.node.radio.Mindful :=
    mindful_after (Radio.start_mindful self config clock) before
  have mindful' : s'.node.radio.Mindful := mindful_step mindful _
  have own : s.node.radio.self = self := self_after (start self config clock) before
  have own' : t.node.radio.self = self := by
    have later := self_after s' later
    have step := self_after s [.receive peer bytes services]
    exact later.trans (step.trans own)
  obtain ⟨e, member, same, answer⟩ :=
    Node.receive_entry services (own ▸ other) read kind unknown done one apart keeps
  have kept : e ∈ t.node.radio.remembered := by
    rw [← same] at retains
    exact retains.entry mindful' member
  obtain ⟨last, settled, sent⟩ := duplicate_answered (mindful_after mindful' later) (own' ▸ other)
    read kind kept same accepts
  refine ⟨last, _, settled, sent, ?_⟩
  rcases answer with rfl | ⟨ping, none⟩
  · exact .inl rfl
  · have id : e.id = packet.id := (Prod.mk.inj same).2
    exact .inr ⟨ping, by simp [Remembered.answer, none, id]⟩

def ping : List UInt8 := [0x40, 0, 0, 9]

def answering : List Service := Node.servants (.fixed [.reply Code.content []])

set_option maxRecDepth 10000 in
/-- A request is answered, a ping of another node comes in between, and the request comes again. -/
theorem duplicate_answered_after_ping :
    let s := (start 0 {} {}).after [.create (.plain "a" (.fixed []))]
    let s' := s.step (.receive 1 request answering)
    let t := s'.after [.receive 2 ping []]
    ∃ last again, t.node.Settles 1 request last (.ok .duplicate) ∧
      last.deliveredSince t.node = [again] ∧ again = ⟨1, [0x60, 0x45, 0, 9]⟩ := by
  intro s s' t
  obtain ⟨packet, read, head⟩ := Node.exists_read request
    (fun p => p.kind == .confirmable && p.id == ⟨9⟩ && !p.code.isEmpty) (by decide +kernel)
  simp only [Bool.and_eq_true, beq_iff_eq, Bool.not_eq_true'] at head
  obtain ⟨⟨kind, id⟩, nonempty⟩ := head
  obtain ⟨inbound, done⟩ : ∃ inbound,
      (s.node.receive 1 request answering).2.2 = .ok inbound := by
    have tested : (s.node.receive 1 request answering).2.2.toBool = true := by decide +kernel
    generalize (s.node.receive 1 request answering).2.2 = result at tested
    cases result with
    | ok inbound => exact ⟨inbound, rfl⟩
    | error e => cases tested
  have retains : s'.Retains (1, ⟨9⟩) [.receive 2 ping []] := by
    have known : (1, ⟨9⟩) ∈ t.node.radio.recent := by decide +kernel
    exact ⟨by decide +kernel, by decide +kernel, known⟩
  have unchanged : s'.node.rekeyedSince s.node = [] := by decide +kernel
  obtain ⟨last, again, settles, one, same | ⟨empty, -⟩⟩ :=
    duplicate_answered_again 0 {} {} [.create (.plain "a" (.fixed []))] 1 request answering packet
      inbound ⟨1, [0x60, 0x45, 0, 9]⟩ [.receive 2 ping []] (by decide) read kind
      (by rw [id]; decide +kernel) done (by decide +kernel) (by decide +kernel)
      (fun key member => absurd (unchanged ▸ member) (List.not_mem_nil)) (id ▸ retains)
      (by decide +kernel)
  · exact ⟨last, again, settles, one, same⟩
  · rw [nonempty] at empty
    cases empty

def diverting : List Service :=
  Node.servants (.fixed [.markAcknowledged, .send 2 .asIs
    { Packet.fresh 128 with kind := .nonConfirmable, code := Code.get, id := ⟨7⟩ }])

/-- A handler that gives the request another id and answers it then. -/
def relabelling : List Service :=
  Node.servants fun _ m =>
    [.rewrite { m.packet with id := ⟨99⟩ } m.peer, .reply Code.content []]

set_option maxRecDepth 10000 in
/-- A ping is answered with a reset, and when it comes again with an empty acknowledgement. A
request whose handler counts it as acknowledged and asks a third node is acknowledged only when it
comes again. A request that a handler answers under another id is answered with an empty
acknowledgement when it comes again. -/
theorem duplicate_answered_otherwise :
    let n := (start 0 {} {}).node
    let pinged := (n.receive 1 ping []).1
    let served := Node.serving
    let diverted := (served.receive 1 request diverting).1
    let relabelled := (served.receive 1 request relabelling).1
    (1, ⟨9⟩) ∉ n.radio.recent ∧ (n.receive 1 ping []).2.2.toBool = true ∧
      pinged.deliveredSince n = [⟨1, [0x70, 0, 0, 9]⟩] ∧
      (1, ⟨9⟩) ∈ pinged.radio.recent ∧ pinged.radio.refusal = none ∧
      (pinged.receive 1 ping []).1.deliveredSince pinged = [⟨1, [0x60, 0, 0, 9]⟩] ∧
    (1, ⟨9⟩) ∉ served.radio.recent ∧ (served.receive 1 request diverting).2.2.toBool = true ∧
      diverted.deliveredSince served = [⟨2, [0x50, 1, 0, 7]⟩] ∧
      (1, ⟨9⟩) ∈ diverted.radio.recent ∧ diverted.radio.refusal = none ∧
      (diverted.receive 1 request diverting).1.deliveredSince diverted =
        [⟨1, [0x60, 0, 0, 9]⟩] ∧
    (served.receive 1 request relabelling).2.2.toBool = true ∧
      relabelled.deliveredSince served = [⟨1, [0x60, 0x45, 0, 99]⟩] ∧
      (1, ⟨9⟩) ∈ relabelled.radio.recent ∧ relabelled.radio.refusal = none ∧
      (relabelled.receive 1 request relabelling).1.deliveredSince relabelled =
        [⟨1, [0x60, 0, 0, 9]⟩] := by
  decide +kernel

end Run
end CoapNode
