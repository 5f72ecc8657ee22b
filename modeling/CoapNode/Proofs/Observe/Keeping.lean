import CoapNode.Proofs.Observe.Visits
/-! What stays of the services that a node was lent. A part of a service that no call of the radio
changes is the same after a datagram or an event, service by service. -/
namespace CoapNode

namespace Service

variable {α : Type} {f : Service → α} {senders : NodeId → Prop}

/-- A part of a service that neither requests nor resets of these peers change. -/
structure Withstands (f : Service → α) (senders : NodeId → Prop) : Prop where
  offer (s : Service) (n : Node) {m : Received} (sender : senders m.peer) :
    f (s.offer n m).1 = f s
  peerReset (s : Service) (n : Node) {peer : NodeId} (sender : senders peer)
    (token : ShortBytes) : f (s.peerReset n peer token).1 = f s
  unmatchedReset (s : Service) (n : Node) {peer : NodeId} (sender : senders peer)
    (id : MessageId) : f (s.unmatchedReset n peer id).1 = f s

/-- A part of a service that no event changes. -/
structure Outlasts (f : Service → α) : Prop where
  timerFired (s : Service) (n : Node) (id : RegistrationId) : f (s.timerFired n id).1 = f s
  expired (s : Service) (n : Node) (peer : NodeId) (token : ShortBytes) :
    f (s.expired n peer token).1 = f s

theorem forEach_keeps {act : Service → Node → Service × Node}
    (each : ∀ (s : Service) (n : Node), f (act s n).1 = f s) (services : List Service)
    (n : Node) : (forEach act services n).1.map f = services.map f := by
  induction services generalizing n with
  | nil => rfl
  | cons s rest ih => simp only [forEach, List.map_cons, each s n, ih]

end Service

namespace Node

variable {α : Type} {f : Service → α} {senders : NodeId → Prop} {n n' n'' : Node}
  {m m' : Received} {peer : NodeId}

theorem Serves.key (h : n.Serves m n' m') : m'.key = m.key ∨ m'.key ∈ n'.rekeyedSince n := by
  obtain ⟨entries, journal, -, conduct⟩ := h
  rw [rekeyedSince, deedsSince, journal, List.drop_left]
  exact conduct.key

theorem rekeyedSince_trans (wrote : n.journal <+: n'.journal)
    (wrote' : n'.journal <+: n''.journal) :
    n''.rekeyedSince n = n'.rekeyedSince n ++ n''.rekeyedSince n' := by
  simp only [rekeyedSince, deedsSince, written_trans wrote wrote', List.filterMap_append]

section

variable (withstands : Service.Withstands f senders)

include withstands

theorem askUnmatched_keeps (n : Node) (sender : senders peer) (id : MessageId)
    (services : List Service) :
    (n.askUnmatched peer id services).2.1.map f = services.map f := by
  induction services generalizing n with
  | nil => rfl
  | cons s rest ih =>
    simp only [askUnmatched, List.map_cons, withstands.unmatchedReset s n sender id, ih]

/-- The message stays one of these peers', whoever a handler makes its sender. -/
theorem offerRequest_keeps (n : Node) {m : Received} (sender : senders m.peer)
    (services : List Service)
    (rekeyed : ∀ key ∈ (n.offerRequest m services).1.rekeyedSince n, senders key.1) :
    (n.offerRequest m services).2.2.1.map f = services.map f := by
  induction services generalizing n m with
  | nil => rfl
  | cons s rest ih =>
    unfold offerRequest at rekeyed ⊢
    by_cases current : s.registration.any n.radio.isRegistered = true
    · have first := withstands.offer s n sender
      have serves := s.offer_serves n m
      simp only [if_pos current] at rekeyed ⊢
      generalize s.offer n m = offered at rekeyed first serves ⊢
      obtain ⟨s', n', m', taken⟩ := offered
      cases taken with
      | true => simpa only [if_true, List.map_cons] using congrArg (· :: rest.map f) first
      | false =>
        simp only [Bool.false_eq_true, if_false] at rekeyed ⊢
        rw [rekeyedSince_trans serves.wrote (n'.offerRequest_serves m' rest).wrote] at rekeyed
        obtain ⟨here, later⟩ := List.forall_mem_append.mp rekeyed
        have sender' : senders m'.peer := by
          rcases serves.key with same | new
          · rw [show m'.peer = m.peer from congrArg Prod.fst same]
            exact sender
          · exact here _ new
        simp only [List.map_cons, first, ih n' sender' later]
    · simp only [if_neg current] at rekeyed ⊢
      simp only [List.map_cons, ih n sender rekeyed]

theorem receiveReply_keeps (n : Node) (sender : senders peer) (packet : Message)
    (services : List Service) :
    (n.receiveReply peer packet services).2.1.map f = services.map f := by
  unfold receiveReply
  simp only
  split
  · exact Service.forEach_keeps (fun s n => withstands.peerReset s n sender _) services _
  · exact askUnmatched_keeps withstands _ sender packet.id services
  · split <;> rfl
  · rfl

theorem receiveRequest_keeps (n : Node) {m : Received} (sender : senders m.peer)
    (services : List Service)
    (rekeyed : ∀ key ∈ (n.receiveRequest m services).1.rekeyedSince n, senders key.1) :
    (n.receiveRequest m services).2.1.map f = services.map f := by
  rw [receiveRequest_services]
  refine offerRequest_keeps withstands n sender services fun key member => rekeyed key ?_
  rw [rekeyedSince_trans (n.offerRequest_serves m services).wrote
    (lasting_trivial.receiveRequest_rest n m services).wrote]
  exact List.mem_append_left _ member

theorem receiveOriginal_keeps (n : Node) (sender : senders peer) (packet : Message)
    (services : List Service)
    (rekeyed : ∀ key ∈ (n.receiveOriginal peer packet services).1.rekeyedSince n,
      senders key.1) :
    (n.receiveOriginal peer packet services).2.1.map f = services.map f := by
  unfold receiveOriginal receiveNew at rekeyed ⊢
  cases seen : n.radio.remembered.find? fun s => s.peer == peer && s.id == packet.id with
  | some known => rfl
  | none =>
    simp only [seen] at rekeyed ⊢
    by_cases empty : packet.code.isEmpty = true
    · simp only [if_pos empty]
    by_cases request : packet.isRequest = true
    · simp only [if_neg empty, if_pos request] at rekeyed ⊢
      exact receiveRequest_keeps withstands _ (m := .fresh packet peer) sender services rekeyed
    · simp only [if_neg empty, if_neg request]
      split <;> rfl

theorem receive_keeps (n : Node) (sender : senders peer) (bytes : List UInt8)
    (services : List Service)
    (rekeyed : ∀ key ∈ (n.receive peer bytes services).1.rekeyedSince n, senders key.1) :
    (n.receive peer bytes services).2.1.map f = services.map f := by
  by_cases own : peer = n.radio.self
  · rw [receive, if_pos own]
  cases read : Packet.decode 128 bytes with
  | error refusal => simp only [receive, if_neg own, read]
  | ok packet =>
    simp only [receive, if_neg own, read] at rekeyed ⊢
    cases kind : packet.kind with
    | acknowledgement | reset =>
      exact receiveReply_keeps withstands (n.heard peer packet) sender packet services
    | confirmable | nonConfirmable =>
      rw [kind] at rekeyed
      exact receiveOriginal_keeps withstands (n.heard peer packet) sender packet services rekeyed

end

theorem fire_keeps (outlasts : Service.Outlasts f) (n : Node) (event : TimerEvent)
    (services : List Service) : (n.fire event services).2.1.map f = services.map f := by
  cases event with
  | retransmit id =>
    unfold fire retransmit
    simp only
    split
    · rfl
    · split
      · rfl
      · exact Service.forEach_keeps (fun s n => outlasts.expired s n _ _) services _
  | maxAge id =>
    refine Service.forEach_keeps (fun s n => ?_) services n
    split
    · exact outlasts.timerFired s n id
    · rfl

end Node
end CoapNode
