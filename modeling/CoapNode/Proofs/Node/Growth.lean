import CoapNode.Proofs.Node.Conduct
/-! Handlers and services only send, and none of them tells another that a message expired. -/
namespace CoapNode

namespace Node

/-- What services wrote down about expired messages, the oldest first. -/
def expiries (n : Node) : List (NodeId × ShortBytes) := n.journal.filterMap (·.expired?)

structure Grows (n n' : Node) : Prop where
  radio : n.radio.Grows n'.radio
  expiries : n'.expiries = n.expiries

variable {n n' n'' : Node}

theorem Grows.refl (n : Node) : n.Grows n := ⟨Radio.Grows.refl _, rfl⟩

theorem Grows.trans (h : n.Grows n') (h' : n'.Grows n'') : n.Grows n'' :=
  ⟨h.radio.trans h'.radio, h'.expiries.trans h.expiries⟩

theorem grows_of_radio {r : Radio} (h : n.radio.Grows r) : n.Grows { n with radio := r } :=
  ⟨h, rfl⟩

theorem note_grows (n : Node) (severity : Severity) (text : String) :
    n.Grows (n.note severity text) := grows_of_radio (Radio.note_quiet _ _ _).grows

theorem Serves.grows {m m' : Received} (h : n.Serves m n' m')
    (unasked : ∀ event ∈ n'.askedSince n, event.retransmits? = none) : n.Grows n' := by
  obtain ⟨entries, journal, unexpired, conduct⟩ := h
  rw [askedSince_eq, deedsSince, journal, List.drop_left] at unasked
  exact ⟨conduct.grows (List.filterMap_eq_nil_iff.mpr unasked), by
    simp [expiries, journal, unexpired]⟩

theorem Tends.grows (h : n.Tends n') : n.Grows n' := by
  obtain ⟨entries, journal, plain, sends⟩ := h
  have unexpired : entries.filterMap (·.expired?) = [] :=
    List.filterMap_eq_nil_iff.mpr fun e member => (plain e member).1
  exact ⟨sends.grows, by simp [expiries, journal, unexpired]⟩

/-- What an application does on its own account, outside of a handler, is not written down. -/
theorem perform_grows (n : Node) (a : Action) (m : Received)
    (unasked : ∀ event ∈ a.asked?, event.retransmits? = none) : n.Grows (a.perform n m).1 := by
  have conduct := a.perform_conduct n m false false
  refine ⟨conduct.grows ?_, by simp [expiries, a.perform_journal]⟩
  have asked := JournalEntry.asked?_eq (.acted a (a.perform n m).2.2 false false)
  rw [JournalEntry.asked?] at asked
  rw [asked] at unasked
  simpa [List.filterMap_eq_nil_iff, Option.bind_eq_some_iff] using unasked

theorem finishRequest_grows (n : Node) (request : Message) (m : Received) :
    n.Grows (n.finishRequest request m).1 := by
  have grows := n.radio.acknowledge_grows m
  unfold finishRequest
  split
  · split
    · next done => rw [done] at grows; exact grows_of_radio grows
    · next failed => rw [failed] at grows; exact grows_of_radio grows
  · exact Grows.refl n

theorem receiveRequest_grows (n : Node) (m : Received) (services : List Service)
    (unasked : ∀ event ∈ (n.receiveRequest m services).1.askedSince n,
      event.retransmits? = none) : n.Grows (n.receiveRequest m services).1 := by
  obtain ⟨n', m', serves, ⟨node, -⟩ | ⟨node, -⟩⟩ := n.receiveRequest_cases m services
  · rw [node] at unasked ⊢
    exact serves.grows unasked
  · rw [node, askedSince, finishRequest_journal] at unasked
    rw [node]
    exact (serves.grows unasked).trans (n'.finishRequest_grows m.packet m')

theorem receivePing_grows (n : Node) (peer : NodeId) (packet : Message) :
    n.Grows (n.receivePing peer packet).1 := by
  have grows := n.radio.transmit_grows peer (emptyMessage .reset packet.id) .receiving
    (by simp [emptyMessage]) (by simp)
  unfold receivePing
  split
  · split
    · next done => rw [done] at grows; exact grows_of_radio grows
    · next failed => rw [failed] at grows; exact grows_of_radio grows
  · exact Grows.refl n

theorem receiveResponse_grows (n : Node) (m : Received) : n.Grows (n.receiveResponse m).1 := by
  have grows := n.radio.acknowledge_grows m
  unfold receiveResponse
  split
  · split
    · next done => rw [done] at grows; exact grows_of_radio grows
    · next failed => rw [failed] at grows; exact grows_of_radio grows
  · exact Grows.refl n

theorem receiveNew_grows (n : Node) (peer : NodeId) (packet : Message) (services : List Service)
    (unasked : ∀ event ∈ (n.receiveNew peer packet services).1.askedSince n,
      event.retransmits? = none) : n.Grows (n.receiveNew peer packet services).1 := by
  unfold receiveNew at unasked ⊢
  simp only at unasked ⊢
  split
  · exact n.receivePing_grows peer packet
  · next nonempty =>
    rw [if_neg nonempty] at unasked
    split
    · next request =>
      rw [if_pos request] at unasked
      exact n.receiveRequest_grows _ services unasked
    · split
      · exact n.receiveResponse_grows _
      · exact Grows.refl n

/-- The stored answer to a request that came again, sent as it was stored. -/
structure RepeatsAnswer (n : Node) (peer : NodeId) (packet : Message) (t : Transmission) :
    Prop where
  request : packet.kind = .confirmable
  activity : t.activity = .receiving
  goes : t.peer = peer
  stored : ∃ seen ∈ n.radio.remembered, seen.peer = peer ∧ seen.id = packet.id ∧
    seen.response = some t.packet

theorem receiveDuplicate_cases (r : Radio) (peer : NodeId) (packet : Message)
    (stored : Option Message) :
    r.Grows (r.receiveDuplicate peer packet stored).1 ∨
      packet.kind = .confirmable ∧ ∃ t : Transmission, t.activity = .receiving ∧ t.peer = peer ∧
        stored = some t.packet ∧ r.Extends (r.receiveDuplicate peer packet stored).1 [t] [] := by
  unfold Radio.receiveDuplicate
  simp only
  have noted := r.note_quiet .debug ("duplicate " ++ packet.id.inspect ++ " from " ++
    toString peer)
  generalize r.note .debug ("duplicate " ++ packet.id.inspect ++ " from " ++ toString peer) = s at *
  split
  · next kind =>
    cases stored with
    | none =>
      have grows := noted.grows.trans (s.transmit_grows peer
        (emptyMessage .acknowledgement packet.id) .receiving (by simp [emptyMessage]) (by simp))
      rw [Option.getD_none]
      left
      split
      · next done => rw [done] at grows; exact grows
      · next failed => rw [failed] at grows; exact grows
    | some response =>
      rw [Option.getD_some]
      rcases s.transmit_cases peer response .receiving with
        ⟨-, same, -⟩ | ⟨refusal, offers, fits, -⟩
      · left
        split
        · next done => rw [done] at same; exact same ▸ noted.grows
        · next failed => rw [failed] at same; exact same ▸ noted.grows
      · refine .inr ⟨kind, ⟨peer, response, response.datagram, .receiving, refusal⟩, rfl, rfl,
          rfl, ?_⟩
        have extends' := noted.extends.trans (offers.extends ⟨rfl, fits⟩
          (by simp [Transmission.enters]) (by simp))
        split
        · next done => rw [done] at extends'; exact extends'
        · next failed => rw [failed] at extends'; exact extends'
  · exact .inl noted.grows

theorem receiveOriginal_cases (n : Node) (peer : NodeId) (packet : Message)
    (services : List Service)
    (unasked : ∀ event ∈ (n.receiveOriginal peer packet services).1.askedSince n,
      event.retransmits? = none) :
    n.Grows (n.receiveOriginal peer packet services).1 ∨
      ∃ t, n.RepeatsAnswer peer packet t ∧
        n.radio.Extends (n.receiveOriginal peer packet services).1.radio [t] [] ∧
        (n.receiveOriginal peer packet services).1.expiries = n.expiries := by
  unfold receiveOriginal at unasked ⊢
  split
  · next seen found =>
    rcases receiveDuplicate_cases n.radio peer packet seen.response with
      grows | ⟨kind, t, activity, samePeer, stored, extends'⟩
    · exact .inl (grows_of_radio grows)
    · have known := List.find?_some found
      simp only [Bool.and_eq_true, beq_iff_eq] at known
      exact .inr ⟨t, ⟨kind, activity, samePeer, seen, List.mem_of_find?_eq_some found, known.1,
        known.2, stored⟩, extends', rfl⟩
  · next new =>
    rw [new] at unasked
    have entered : n.radio.Quiet (n.radio.remember peer packet.id) := ⟨rfl, rfl, rfl, rfl, rfl⟩
    exact .inl ((grows_of_radio entered.grows).trans
      (receiveNew_grows _ peer packet services unasked))

theorem reject_grows (r : Radio) (peer : NodeId) (refusal : Refusal 128) :
    r.Grows (r.reject peer refusal).1 := by
  unfold Radio.reject
  split
  · exact (r.note_quiet _ _).grows
  simp only
  have noted := (r.note_quiet .warn ("rejecting message from " ++ toString peer ++ ": " ++
    refusal.cause.message)).grows
  generalize r.note .warn ("rejecting message from " ++ toString peer ++ ": " ++
    refusal.cause.message) = s at *
  split
  · exact noted
  · next drawn response head =>
    obtain ⟨quiet, kind⟩ : s.Quiet drawn ∧ response.kind ≠ .confirmable := by
      unfold Radio.rejectionHead at head
      split at head
      · split at head <;> cases head
        · exact ⟨Radio.Quiet.refl s, by simp [emptyMessage]⟩
        · exact ⟨s.drawId_quiet, by simp [emptyMessage]⟩
      · cases head
    have ready := noted.trans quiet.grows
    split
    · exact ready
    · next packet filled =>
      have same : packet.kind = response.kind := by
        obtain ⟨-, rfl⟩ := Packet.setPayload_ok filled
        rfl
      have grows := ready.trans
        (drawn.transmit_grows peer packet .receiving (same ▸ kind) (by simp))
      split
      · next done => rw [done] at grows; exact grows
      · next failed => rw [failed] at grows; exact grows

end Node
end CoapNode
