import CoapNode.Proofs.Node.Acknowledging
import CoapNode.Proofs.Node.AtMostOnce
/-! What the application gets of responses. A confirmable response enters the history before it is
acknowledged, and the application gets it only after that. When the acknowledgement is refused the
response is remembered all the same, so a repetition is acknowledged as a duplicate and the
application never sees it. -/
namespace CoapNode

def Inbound.isResponse : Inbound → Bool
  | .response _ => true
  | _ => false

/-- The response as the application gets it. -/
def Received.acknowledgedResponse (packet : Message) (peer : NodeId) : Received :=
  { Received.fresh packet peer with acknowledged := true }

namespace Node

variable {n : Node} {peer : NodeId} {bytes : List UInt8} {packet : Message}

theorem not_isRequest_of_isResponse (response : packet.isResponse = true) :
    packet.code.isEmpty = false ∧ packet.isRequest = false := by
  simp only [Packet.isResponse, Code.isResponse, Bool.and_eq_true, decide_eq_true_eq] at response
  constructor
  · by_contra empty
    simp only [Code.isEmpty, Bool.not_eq_false, beq_iff_eq] at empty
    simp [empty, Code.empty, Code.toByte] at response
  · have least := UInt8.le_iff_toNat_le.mp response.1
    simp only [Packet.isRequest, Code.isRequest, Bool.and_eq_false_iff, decide_eq_false_iff_not]
    right
    intro most
    have := UInt8.le_iff_toNat_le.mp most
    simp at least this
    omega

theorem acknowledge_outcome (r : Radio) (m : Received) :
    r.refusal = none ∧ (r.acknowledge m).2 = ({ m with acknowledged := true }, .ok ()) ∨
      ∃ code, r.refusal = some code ∧
        (r.acknowledge m).2 = (m, .error ⟨.transport code, .sending m.packet.id⟩) := by
  obtain ⟨s, sent, -⟩ := r.transmit_of_fits m.peer (.sending m.packet.id)
    (Radio.emptyMessage_fits .acknowledgement m.packet.id)
  unfold Radio.acknowledge
  split
  · next done =>
    rw [done] at sent
    cases refusal : r.refusal with
    | none => exact .inl ⟨rfl, rfl⟩
    | some code => simp [refusal] at sent
  · next failed =>
    rw [failed] at sent
    cases refusal : r.refusal with
    | none => simp [refusal] at sent
    | some code =>
      simp only [refusal, Prod.mk.injEq, Except.error.injEq] at sent
      exact .inr ⟨code, rfl, by rw [sent.2]⟩

theorem receiveResponse_outcome (n : Node) (m : Received) (kind : m.packet.kind = .confirmable) :
    n.radio.refusal = none ∧
        (n.receiveResponse m).2 = .ok (.response { m with acknowledged := true }) ∨
      ∃ code, n.radio.refusal = some code ∧
        (n.receiveResponse m).2 = .error ⟨.transport code, .sending m.packet.id⟩ := by
  have outcome := acknowledge_outcome n.radio m
  simp only [receiveResponse, if_pos kind]
  generalize n.radio.acknowledge m = done at outcome ⊢
  obtain ⟨radio, answer⟩ := done
  rcases outcome with ⟨accepted, rfl⟩ | ⟨code, refused, rfl⟩
  · exact .inl ⟨accepted, rfl⟩
  · exact .inr ⟨code, refused, rfl⟩

theorem receive_response (services : List Service) (other : peer ≠ n.radio.self)
    (read : Packet.decode 128 bytes = .ok packet) (kind : packet.kind = .confirmable)
    (response : packet.isResponse = true) (unknown : (peer, packet.id) ∉ n.radio.recent) :
    n.radio.refusal = none ∧ (n.receive peer bytes services).2.2 =
        .ok (.response (.acknowledgedResponse packet peer)) ∨
      ∃ code, n.radio.refusal = some code ∧ (n.receive peer bytes services).2.2 =
        .error ⟨.transport code, .sending packet.id⟩ := by
  obtain ⟨nonempty, noRequest⟩ := not_isRequest_of_isResponse response
  rw [receive_new n services other read (by rw [kind]; rfl) unknown]
  simp only [receiveNew, nonempty, noRequest, response, Bool.false_eq_true, if_false, if_true]
  exact receiveResponse_outcome (n.entered peer packet) (.fresh packet peer) kind

end Node

namespace Run

variable {s : Run} {key : NodeId × MessageId}

theorem exists_arrival (s : Run) (ops : List Operation) (came : key ∈ s.arrivals ops) :
    ∃ before op between, ops = before ++ op :: between ∧
      (s.after before).node.arrival op = some key := by
  induction ops generalizing s with
  | nil => cases came
  | cons op rest ih =>
    rcases List.mem_append.mp came with now | later
    · exact ⟨[], op, rest, rfl, Option.mem_toList.mp now⟩
    · obtain ⟨before, op', between, split, arrival⟩ := ih (s.step op) later
      exact ⟨op :: before, op', between, by rw [split]; rfl, arrival⟩

/-- The datagram was received at this point of the run, with this result. -/
def Receives (s : Run) (ops : List Operation) (peer : NodeId) (bytes : List UInt8)
    (result : Except RuntimeError Inbound) : Prop :=
  ∃ before services between, ops = before ++ .receive peer bytes services :: between ∧
    ((s.after before).node.receive peer bytes services).2.2 = result

theorem receives_response {self : NodeId} {config : Config} {clock : Clock} {ops : List Operation}
    {peer : NodeId} {bytes : List UInt8} {packet : Message} {before between : List Operation}
    {services : List Service} (other : peer ≠ self)
    (read : Packet.decode 128 bytes = .ok packet) (kind : packet.kind = .confirmable)
    (response : packet.isResponse = true)
    (split : ops = before ++ .receive peer bytes services :: between)
    (unknown : (peer, packet.id) ∉ ((start self config clock).after before).node.radio.recent) :
    (start self config clock).Receives ops peer bytes
        (.ok (.response (.acknowledgedResponse packet peer))) ∨
      ∃ code, (start self config clock).Receives ops peer bytes
        (.error ⟨.transport code, .sending packet.id⟩) := by
  have own := self_after (start self config clock) before
  have other' : peer ≠ ((start self config clock).after before).node.radio.self := by
    rw [own]
    exact other
  rcases Node.receive_response services other' read kind response unknown with
    ⟨-, result⟩ | ⟨code, -, result⟩
  · exact .inl ⟨before, services, between, split, result⟩
  · exact .inr ⟨code, before, services, between, split, result⟩

/-- A confirmable response that was received goes to the application, unless a delivery of it
failed because its acknowledgement was refused. No other message comes under its id. -/
theorem response_received_or_refused (self : NodeId) (config : Config) (clock : Clock)
    (ops : List Operation) (peer : NodeId) (bytes : List UInt8) (packet : Message)
    (services : List Service) (other : peer ≠ self)
    (read : Packet.decode 128 bytes = .ok packet) (kind : packet.kind = .confirmable)
    (response : packet.isResponse = true) (came : .receive peer bytes services ∈ ops)
    (alone : ∀ again services packet', .receive peer again services ∈ ops →
      Packet.decode 128 again = .ok packet' → packet'.kind.original = true →
      packet'.id = packet.id → again = bytes) :
    (start self config clock).Receives ops peer bytes
        (.ok (.response (.acknowledgedResponse packet peer))) ∨
      ∃ code, (start self config clock).Receives ops peer bytes
        (.error ⟨.transport code, .sending packet.id⟩) := by
  obtain ⟨before, between, split⟩ := List.append_of_mem came
  by_cases known : (peer, packet.id) ∈ ((start self config clock).after before).node.radio.recent
  · -- The entry stems from an earlier delivery, which was of the same datagram.
    rw [recent_after (Radio.start_mindful self config clock) before] at known
    obtain ⟨earlier, op, meanwhile, split', arrival⟩ :=
      exists_arrival _ before (List.mem_of_mem_drop known)
    cases op with
    | receive peer' again services' =>
      obtain ⟨original, unknown⟩ := Node.new?_eq_some.mp arrival
      obtain ⟨packet', read', -, kind', same⟩ := Node.original?_eq_some.mp original
      obtain ⟨rfl, id⟩ := Prod.mk.inj same
      have member : .receive peer again services' ∈ ops := by simp [split, split']
      obtain rfl := alone again services' packet' member read' kind' id.symm
      have split'' : ops = earlier ++ .receive peer again services' ::
          (meanwhile ++ .receive peer again services :: between) := by simp [split, split']
      exact receives_response other read kind response split'' unknown
    | _ => cases arrival
  · exact receives_response other read kind response split known

def separate : List UInt8 := [0x40, 0x45, 0, 9]

/-- A response comes twice, and the network refuses the first acknowledgement. -/
def refusedOnce : List Operation :=
  [.setOutcomes [.failed 5], .receive 1 separate [], .receive 1 separate []]

set_option maxRecDepth 10000 in
theorem refused_response_received :
    ∃ packet, Packet.decode 128 separate = .ok packet ∧
      ((start 0 {} {}).Receives refusedOnce 1 separate
          (.ok (.response (.acknowledgedResponse packet 1))) ∨
        ∃ code, (start 0 {} {}).Receives refusedOnce 1 separate
          (.error ⟨.transport code, .sending packet.id⟩)) := by
  obtain ⟨packet, read, head⟩ := Node.exists_read separate
    (fun p => p.kind == .confirmable && p.isResponse) (by decide +kernel)
  simp only [Bool.and_eq_true, beq_iff_eq] at head
  obtain ⟨kind, response⟩ := head
  refine ⟨packet, read, ?_⟩
  apply response_received_or_refused 0 {} {} refusedOnce 1 separate packet [] (by decide) read kind
    response (by simp [refusedOnce])
  intro again services packet' member _ _ _
  simp only [refusedOnce, List.mem_cons, List.not_mem_nil, or_false, reduceCtorEq, false_or,
    Operation.receive.injEq, or_self] at member
  exact member.2.1

set_option maxRecDepth 10000 in
/-- The network takes an acknowledgement of the response, which the application never gets. -/
theorem acknowledged_response_lost :
    let before := (start 0 {} {}).after [.setOutcomes [.failed 5], .receive 1 separate []]
    (∃ d ∈ (before.step (.receive 1 separate [])).node.deliveredSince before.node,
        d.acknowledges 1 ⟨9⟩ = true) ∧
      ∀ m, ¬ (start 0 {} {}).Receives refusedOnce 1 separate (.ok (.response m)) := by
  intro before
  refine ⟨by decide +kernel, ?_⟩
  have failed : (((start 0 {} {}).after [.setOutcomes [.failed 5]]).node.receive
      1 separate []).2.2.toOption.any (·.isResponse) = false := by decide +kernel
  have repeated : (before.node.receive 1 separate []).2.2.toOption.any (·.isResponse) = false := by
    decide +kernel
  rintro m ⟨earlier, services, later, split, result⟩
  rcases earlier with _ | ⟨a, _ | ⟨b, _ | ⟨c, rest⟩⟩⟩
  · simp [refusedOnce] at split
  · simp only [refusedOnce, List.cons_append, List.nil_append, List.cons.injEq] at split
    obtain ⟨rfl, same, -⟩ := split
    cases same
    rw [result] at failed
    cases failed
  · simp only [refusedOnce, List.cons_append, List.nil_append, List.cons.injEq] at split
    obtain ⟨rfl, rfl, same, -⟩ := split
    cases same
    rw [result] at repeated
    cases repeated
  · simp [refusedOnce] at split

end Run
end CoapNode
