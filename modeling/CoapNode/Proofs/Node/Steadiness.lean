import CoapNode.Proofs.Radio.Steadiness
import CoapNode.Proofs.Node.Operations
/-! What holds between the radio of a node and the same radio after an operation. Besides lending
it to services a node only edits its histories. -/
namespace CoapNode

namespace Radio

variable {R : Radio → Radio → Prop}

/-! ## The node's own answers -/

section

variable (light : Light R)

include light

theorem Light.finishRequest (n : Node) (request : Message) (m : Received) :
    R n.radio (n.finishRequest request m).1.radio := by
  have offered := light.acknowledge n.radio m
  unfold Node.finishRequest
  split
  · split
    · next done => rw [done] at offered; exact offered
    · next failed => rw [failed] at offered; exact offered
  · exact light.refl _

theorem Light.receivePing (n : Node) (peer : NodeId) (packet : Message) :
    R n.radio (n.receivePing peer packet).1.radio := by
  have offered := light.transmit n.radio peer (emptyMessage .reset packet.id) .receiving
  unfold Node.receivePing
  split
  · split
    · next done => rw [done] at offered; exact offered
    · next failed => rw [failed] at offered; exact offered
  · exact light.refl _

theorem Light.receiveResponse (n : Node) (m : Received) :
    R n.radio (n.receiveResponse m).1.radio := by
  have offered := light.acknowledge n.radio m
  unfold Node.receiveResponse
  split
  · split
    · next done => rw [done] at offered; exact offered
    · next failed => rw [failed] at offered; exact offered
  · exact light.refl _

theorem Light.receiveDuplicate (r : Radio) (peer : NodeId) (packet : Message)
    (stored : Option Message) : R r (r.receiveDuplicate peer packet stored).1 := by
  have noted := light.note r .debug ("duplicate " ++ packet.id.inspect ++ " from " ++
    toString peer)
  unfold Radio.receiveDuplicate
  simp only
  generalize r.note .debug ("duplicate " ++ packet.id.inspect ++ " from " ++ toString peer) = s
    at noted ⊢
  split
  · have offered := light.trans noted (light.transmit s peer
      (stored.getD (emptyMessage .acknowledgement packet.id)) .receiving)
    split
    · next done => rw [done] at offered; exact offered
    · next failed => rw [failed] at offered; exact offered
  · exact noted

theorem Light.rejectionHead {r s : Radio} {packet response : Message}
    (head : r.rejectionHead packet = some (s, response)) : R r s := by
  unfold Radio.rejectionHead at head
  split at head
  · split at head <;> cases head
    · exact light.refl r
    · exact light.drawId r
  · cases head

theorem Light.reject (r : Radio) (peer : NodeId) (refusal : Refusal 128) :
    R r (r.reject peer refusal).1 := by
  unfold Radio.reject
  split
  · exact light.note r _ _
  simp only
  have noted := light.note r .warn ("rejecting message from " ++ toString peer ++ ": " ++
    refusal.cause.message)
  generalize r.note .warn ("rejecting message from " ++ toString peer ++ ": " ++
    refusal.cause.message) = s at noted ⊢
  split
  · exact noted
  next drawn response head =>
  have ready := light.trans noted (light.rejectionHead head)
  split
  · exact ready
  next packet _ =>
  have offered := light.trans ready (light.transmit drawn peer packet .receiving)
  split
  · next done => rw [done] at offered; exact offered
  · next failed => rw [failed] at offered; exact offered

end

/-! ## Relations that last -/

/-- A relation that editing the histories, asking for retransmissions and setting the surroundings
keep as well. -/
structure Lasting (R : Radio → Radio → Prop) : Prop extends Steady R where
  remember (r : Radio) (peer : NodeId) (id : MessageId) : R r (r.remember peer id)
  history (r : Radio) (entries : List Unacknowledged) : R r { r with unacknowledged := entries }
  retransmits (r : Radio) (after : Nat) (id : MessageId) :
    R r (r.schedule after (.retransmit id))
  outcomes (r : Radio) (outcomes : List SendOutcome) :
    R r { r with network := { r.network with outcomes } }
  clock (r : Radio) (ticks : Nat) (broken : Bool) :
    R r { r with clock := { r.clock with ticks, broken } }
  log (r : Radio) (records : List LogRecord) : R r { r with log := records }

variable (lasting : Lasting R)

include lasting

/-! ## Requests -/

theorem Lasting.offerRequest (n : Node) (m : Received) {services : List Service}
    (asks : ∀ s ∈ services, Permits R s.asks) : Node.Binds R n (n.offerRequest m services).1 := by
  induction services generalizing n m with
  | nil => exact .refl lasting.toSteady n
  | cons s rest ih =>
    obtain ⟨first, others⟩ := List.forall_mem_cons.mp asks
    unfold Node.offerRequest
    split
    · simp only
      split
      · exact lasting.offer s n m first
      · exact (lasting.offer s n m first).trans lasting.toSteady (ih _ _ others)
    · exact ih n m others

theorem Lasting.answerUntaken (n : Node) (request : Message) (m : Received) (taken : Bool) :
    Node.Binds R n (n.answerUntaken request m taken).1 := by
  unfold Node.answerUntaken
  split
  · exact .refl lasting.toSteady n
  · exact Node.binds_of_radio (lasting.trans (lasting.note n.radio .debug _)
      (lasting.reply (n.radio.note .debug ("no resource for " ++ request.summary)) m _ _))

theorem Lasting.receiveRequest_rest (n : Node) (m : Received) (services : List Service) :
    Node.Binds R (n.offerRequest m services).1 (n.receiveRequest m services).1 := by
  unfold Node.receiveRequest
  simp only
  have answered := lasting.answerUntaken (n.offerRequest m services).1 m.packet
    (n.offerRequest m services).2.1 (n.offerRequest m services).2.2.2
  split
  · next failed => rw [failed] at answered; exact answered
  · next n' m' _ done =>
    rw [done] at answered
    have finished : Node.Binds R n' (n'.finishRequest m.packet m').1 :=
      ⟨by rw [n'.finishRequest_journal], fun _ => lasting.finishRequest n' m.packet m'⟩
    exact answered.trans lasting.toSteady finished

theorem Lasting.receiveRequest (n : Node) (m : Received) {services : List Service}
    (asks : ∀ s ∈ services, Permits R s.asks) :
    Node.Binds R n (n.receiveRequest m services).1 :=
  (lasting.offerRequest n m asks).trans lasting.toSteady (lasting.receiveRequest_rest n m services)

theorem Lasting.receiveNew (n : Node) (peer : NodeId) (packet : Message)
    {services : List Service} (asks : ∀ s ∈ services, Permits R s.asks)
    (tolerates : ∀ event ∈ (n.receiveNew peer packet services).1.askedSince n,
      Tolerates R event) : R n.radio (n.receiveNew peer packet services).1.radio := by
  unfold Node.receiveNew at tolerates ⊢
  simp only at tolerates ⊢
  split
  · exact lasting.receivePing n peer packet
  next nonempty =>
  rw [if_neg nonempty] at tolerates
  split
  · next request =>
    rw [if_pos request] at tolerates
    exact (lasting.receiveRequest n _ asks).related tolerates
  split
  · exact lasting.receiveResponse n _
  · exact lasting.refl _

theorem Lasting.receiveOriginal (n : Node) (peer : NodeId) (packet : Message)
    {services : List Service} (asks : ∀ s ∈ services, Permits R s.asks)
    (tolerates : ∀ event ∈ (n.receiveOriginal peer packet services).1.askedSince n,
      Tolerates R event) : R n.radio (n.receiveOriginal peer packet services).1.radio := by
  unfold Node.receiveOriginal at tolerates ⊢
  split
  · exact lasting.receiveDuplicate n.radio peer packet _
  · next new =>
    rw [new] at tolerates
    exact lasting.trans (lasting.remember n.radio peer packet.id) (lasting.receiveNew
      { n with radio := n.radio.remember peer packet.id } peer packet asks tolerates)

/-! ## Other datagrams -/

theorem Lasting.takeUnacknowledged (r : Radio) (peer : NodeId) (id : MessageId) :
    R r (r.takeUnacknowledged peer id).1 := by
  unfold Radio.takeUnacknowledged
  split
  · exact lasting.refl r
  · exact lasting.history r _

theorem Lasting.askUnmatched (n : Node) (peer : NodeId) (id : MessageId)
    (services : List Service) : R n.radio (n.askUnmatched peer id services).1.radio := by
  induction services generalizing n with
  | nil => exact lasting.refl _
  | cons s rest ih => exact lasting.trans (lasting.unmatchedReset s n peer id) (ih _)

theorem Lasting.receiveReply (n : Node) (peer : NodeId) (packet : Message)
    (services : List Service) : R n.radio (n.receiveReply peer packet services).1.radio := by
  have taken := lasting.takeUnacknowledged n.radio peer packet.id
  unfold Node.receiveReply
  simp only
  generalize n.radio.takeUnacknowledged peer packet.id = found at taken ⊢
  obtain ⟨r, sent⟩ := found
  split
  · have noted := lasting.trans taken (lasting.note r .debug
      (packet.id.inspect ++ " was reset by " ++ toString peer))
    exact lasting.trans noted (lasting.forEach
      (fun s _ n => lasting.peerReset s n peer _)
      (Node.note { n with radio := r } .debug
        (packet.id.inspect ++ " was reset by " ++ toString peer)))
  · exact lasting.trans taken (lasting.askUnmatched { n with radio := r } peer packet.id services)
  · split <;> exact taken
  · exact taken

theorem Lasting.receive (n : Node) (peer : NodeId) (bytes : List UInt8)
    {services : List Service} (asks : ∀ s ∈ services, Permits R s.asks)
    (tolerates : ∀ event ∈ (n.receive peer bytes services).1.askedSince n, Tolerates R event) :
    R n.radio (n.receive peer bytes services).1.radio := by
  by_cases own : peer = n.radio.self
  · rw [Node.receive, if_pos own]
    exact lasting.note n.radio _ _
  cases read : Packet.decode 128 bytes with
  | error refusal =>
    simp only [Node.receive, if_neg own, read]
    exact lasting.reject n.radio peer refusal
  | ok packet =>
    have noted := lasting.note n.radio .trace ("<- " ++ toString peer ++ " " ++ packet.summary)
    obtain ⟨replied, original⟩ := n.receive_of_decode services own read
    by_cases reply : packet.kind = .acknowledgement ∨ packet.kind = .reset
    · rw [replied reply]
      exact lasting.trans noted (lasting.receiveReply (n.heard peer packet) peer packet services)
    · have kind : packet.kind = .confirmable ∨ packet.kind = .nonConfirmable := by
        cases kind : packet.kind <;> simp [kind] at reply ⊢
      rw [original kind] at tolerates ⊢
      exact lasting.trans noted
        (lasting.receiveOriginal (n.heard peer packet) peer packet asks tolerates)

/-! ## Events -/

theorem Lasting.repeatMessage (n : Node) (index : Nat) (entry : Unacknowledged) (delay : Nat)
    (backoff : Backoff) :
    R n.radio (n.repeatMessage index entry delay backoff).1.radio := by
  unfold Node.repeatMessage
  simp only
  have counted := lasting.history n.radio
    (n.radio.unacknowledged.set index { entry with backoff })
  exact lasting.trans counted (lasting.trans (lasting.note _ _ _)
    (lasting.trans (lasting.retransmits _ _ _) (lasting.transmit _ _ _ _)))

theorem Lasting.giveUp (n : Node) (index : Nat) (entry : Unacknowledged)
    (services : List Service) : R n.radio (n.giveUp index entry services).1.radio := by
  unfold Node.giveUp
  simp only
  have dropped := lasting.trans
    (lasting.history n.radio (n.radio.unacknowledged.eraseIdx index)) (lasting.note _ .warn
      (entry.packet.id.inspect ++ " to " ++ toString entry.peer ++ " was never acknowledged"))
  generalize Radio.note _ _ _ = r at dropped ⊢
  exact lasting.trans dropped (lasting.forEach
    (fun s _ n => lasting.expired s n entry.peer entry.packet.token) { n with radio := r })

theorem Lasting.retransmit (n : Node) (id : MessageId) (services : List Service) :
    R n.radio (n.retransmit id services).1.radio := by
  unfold Node.retransmit
  simp only
  split
  · exact lasting.refl _
  · split
    · exact lasting.repeatMessage n _ _ _ _
    · exact lasting.giveUp n _ _ _

theorem Lasting.timerFires (s : Service) (n : Node) (id : RegistrationId)
    (asks : Permits R s.asks) :
    R n.radio (if s.registration = some id then s.timerFired n id else (s, n)).2.radio := by
  split
  · exact lasting.timerFired s n id asks
  · exact lasting.refl _

theorem Lasting.fire (n : Node) (event : TimerEvent) {services : List Service}
    (asks : ∀ s ∈ services, Permits R s.asks) : R n.radio (n.fire event services).1.radio := by
  cases event with
  | retransmit id => exact lasting.retransmit n id services
  | maxAge id =>
    exact lasting.forEach (fun s member n => lasting.timerFires s n id (asks s member)) n

/-! ## Operations -/

theorem Lasting.drawIds (r : Radio) (last : StepResult) (times : Nat) :
    R r (r.drawIds last times).1 := by
  induction times generalizing r last with
  | zero => exact lasting.refl r
  | succ times ih => exact lasting.trans (lasting.drawId r) (ih _ _)

theorem Lasting.drawTokens (r : Radio) (last : StepResult) (times : Nat) :
    R r (r.drawTokens last times).1 := by
  induction times generalizing r last with
  | zero => exact lasting.refl r
  | succ times ih => exact lasting.trans (lasting.drawToken r) (ih _ _)

theorem Lasting.apply (all : ∀ event, Tolerates R event) (op : Operation) (n : Node) :
    R n.radio (op.apply n).radio := by
  have permits : ∀ registration, Permits R registration := fun _ id _ => all (.maxAge id)
  cases op with
  | receive peer bytes services =>
    exact lasting.receive n peer bytes (fun _ _ => permits _) fun event _ => all event
  | fire event services => exact lasting.fire n event fun _ _ => permits _
  | perform action m => exact lasting.perform action n m fun event _ => all event
  | call service c => exact lasting.call service n.radio c (permits _)
  | create spec => exact lasting.create n.radio spec
  | schedule after event => exact all event n.radio after
  | drawIds times => exact lasting.drawIds n.radio _ times
  | drawTokens times => exact lasting.drawTokens n.radio _ times
  | setOutcomes outcomes => exact lasting.outcomes n.radio outcomes
  | setClock ticks broken => exact lasting.clock n.radio ticks broken

end Radio
end CoapNode
