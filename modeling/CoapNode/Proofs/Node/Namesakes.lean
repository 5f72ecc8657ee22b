import CoapNode.Proofs.Node.Bookkeeping
/-! Messages under one id. An event names the message it is for by its id alone, and the oldest
unacknowledged message with that id is taken for it; answers are matched by peer and id. So an
event leaves every message alone that is not the oldest under its id. -/
namespace CoapNode

namespace Node

variable {n : Node} {e : Unacknowledged} {before after : List Unacknowledged} {id : MessageId}

def awaiting (n : Node) (peer : NodeId) (id : MessageId) : List Unacknowledged :=
  n.radio.unacknowledged.filter fun e => e.peer == peer && e.packet.id == id

/-- The message that an event with this id is taken to be for. -/
def oldest? (n : Node) (id : MessageId) : Option Unacknowledged :=
  n.radio.unacknowledged.find? fun e => e.packet.id == id

/-- Nothing is done about the messages to a peer under an id. Whoever is reported to have expired
was another message, which left. -/
structure Spares (n n' : Node) (peer : NodeId) (id : MessageId) : Prop where
  kept : n'.awaiting peer id = n.awaiting peer id
  unsent : ∀ t ∈ n'.radio.transmissions.drop n.radio.transmissions.length,
    t.peer ≠ peer ∨ t.packet.id ≠ id
  unreported : ∀ x ∈ n'.expiries.drop n.expiries.length, ∃ e ∈ n.radio.unacknowledged,
    x = (e.peer, e.packet.token) ∧ (e.peer ≠ peer ∨ e.packet.id ≠ id) ∧
      n'.radio.unacknowledged = n.radio.unacknowledged.erase e

theorem oldest?_eq_some (oldest : n.oldest? id = some e) :
    ∃ before after, n.radio.unacknowledged = before ++ e :: after ∧
      (∀ x ∈ before, x.packet.id ≠ id) ∧ e.packet.id = id := by
  obtain ⟨mine, before, after, whole, earlier⟩ := List.find?_eq_some_iff_append.mp oldest
  exact ⟨before, after, whole, fun x member => by simpa using earlier x member, by simpa using mine⟩

theorem repeatMessage_offers (n : Node) (i : Nat) (e : Unacknowledged) (delay : Nat)
    (backoff : Backoff) : ∃ offered, (n.repeatMessage i e delay backoff).1.radio.transmissions =
      n.radio.transmissions ++ offered ∧ ∀ t ∈ offered, t.peer = e.peer ∧ t.packet = e.packet := by
  unfold repeatMessage
  simp only
  generalize ready : Radio.schedule _ delay (.retransmit e.packet.id) = r
  have same : r.transmissions = n.radio.transmissions := by
    rw [← ready]
    rfl
  rcases r.transmit_cases e.peer e.packet (.retransmitting e.packet.id) with
    ⟨-, silent, -⟩ | ⟨refusal, offers, -, -⟩
  · exact ⟨[], by rw [silent, same, List.append_nil], by simp⟩
  · exact ⟨[_], by rw [offers.transmissions, same], by simp⟩

theorem retransmit_oldest (whole : n.radio.unacknowledged = before ++ e :: after)
    (earlier : ∀ x ∈ before, x.packet.id ≠ id) (mine : e.packet.id = id)
    (services : List Service) :
    let n' := (n.retransmit id services).1
    (n'.radio.unacknowledged = before ++ again e :: after ∧ n'.expiries = n.expiries ∧
        ∃ offered, n'.radio.transmissions = n.radio.transmissions ++ offered ∧
          ∀ t ∈ offered, t.peer = e.peer ∧ t.packet = e.packet) ∨
      (n'.radio.unacknowledged = before ++ after ∧
        n'.radio.transmissions = n.radio.transmissions ∧
        n'.expiries = n.expiries ++
          List.replicate (services.countP listens) (e.peer, e.packet.token)) := by
  have first : n.radio.unacknowledged.findIdx (·.packet.id == id) = before.length := by
    rw [whole, List.findIdx_append]
    have none : before.findIdx (·.packet.id == id) = before.length :=
      List.findIdx_eq_length_of_false fun x member => by simpa using earlier x member
    simp [none, List.findIdx_cons, mine]
  have found : n.radio.unacknowledged[before.length]? = some e := by simp [whole]
  unfold retransmit
  simp only [first, found]
  by_cases spent : e.backoff.maxAttempts ≤ e.backoff.attempts
  · right
    have givesUp := n.giveUp_givesUp before.length e services
    simp only [Backoff.nextAttempt, if_pos spent]
    refine ⟨?_, givesUp.radio.transmissions, givesUp.expiries⟩
    rw [givesUp.radio.unacknowledged]
    simp [Radio.without, whole, List.eraseIdx_append_of_length_le]
  · left
    have repeats := n.repeatMessage_repeats before.length e (again e).backoff.delay
    simp only [Backoff.nextAttempt, if_neg spent]
    exact ⟨repeats.unacknowledged.trans (by simp [whole]), repeats.expiries,
      n.repeatMessage_offers _ _ _ _⟩

/-- Messages are spared that are not to the peer of the oldest under the id, or not under it. -/
theorem retransmit_spares (oldest : n.oldest? id = some e) (services : List Service)
    {peer : NodeId} {other : MessageId} (differ : e.peer ≠ peer ∨ e.packet.id ≠ other) :
    n.Spares (n.retransmit id services).1 peer other := by
  obtain ⟨before, after, whole, earlier, mine⟩ := oldest?_eq_some oldest
  have apart : (e.peer == peer && e.packet.id == other) = false := by
    rcases differ with differ | differ <;> simp [differ]
  rcases retransmit_oldest whole earlier mine services with
    ⟨history, expiries, offered, transmissions, goes⟩ | ⟨history, transmissions, expiries⟩
  · refine ⟨?_, fun t member => ?_, by simp [expiries]⟩
    · have apart' : ((again e).peer == peer && (again e).packet.id == other) = false := apart
      simp [awaiting, history, whole, apart, apart']
    · rw [transmissions, List.drop_left] at member
      obtain ⟨samePeer, samePacket⟩ := goes t member
      rwa [samePeer, samePacket]
  · refine ⟨?_, by simp [transmissions], fun x member => ?_⟩
    · simp [awaiting, history, whole, apart]
    · rw [expiries, List.drop_left] at member
      refine ⟨e, by simp [whole], List.eq_of_mem_replicate member, differ, ?_⟩
      have absent : e ∉ before := fun member => earlier e member mine
      rw [history, whole, List.erase_append_right _ absent, List.erase_cons_head]

/-- An event that was asked for on account of one message does nothing about another that goes to
another peer or has another id. When both have one id, this takes that the oldest message under it
goes to the peer of the first. -/
theorem retransmission_spares (n : Node) (services : List Service) {a b : Unacknowledged}
    (here : a ∈ n.radio.unacknowledged) (differ : a.peer ≠ b.peer ∨ a.packet.id ≠ b.packet.id)
    (turn : a.packet.id = b.packet.id → (n.oldest? a.packet.id).map (·.peer) = some a.peer) :
    n.Spares (n.fire (.retransmit a.packet.id) services).1 b.peer b.packet.id := by
  change n.Spares (n.retransmit a.packet.id services).1 b.peer b.packet.id
  obtain ⟨e, oldest⟩ : ∃ e, n.oldest? a.packet.id = some e :=
    Option.isSome_iff_exists.mp (List.find?_isSome.mpr ⟨a, here, by simp⟩)
  obtain ⟨-, -, -, -, mine⟩ := oldest?_eq_some oldest
  refine retransmit_spares oldest services ?_
  by_cases same : a.packet.id = b.packet.id
  · have samePeer : e.peer = a.peer := by simpa [oldest] using turn same
    exact .inl (samePeer ▸ differ.resolve_right (not_not.mpr same))
  · exact .inr (mine ▸ same)

def twoNamesakes : Node :=
  let ask := emptyMessage .confirmable ⟨7⟩
  ((Run.start 0 (Run.sparing 2) {}).after [.perform (.send 1 .asIs ask) (.fresh ask 1),
    .perform (.send 2 .asIs ask) (.fresh ask 2)]).node

set_option maxRecDepth 10000 in
/-- The event of the older message does nothing about the younger. -/
theorem retransmission_spares_younger :
    ∃ a b, twoNamesakes.radio.unacknowledged = [a, b] ∧ a.peer = 1 ∧ b.peer = 2 ∧
      a.packet.id = b.packet.id ∧
      twoNamesakes.Spares (twoNamesakes.fire (.retransmit a.packet.id) []).1 2 b.packet.id := by
  have both : twoNamesakes.radio.unacknowledged.map (fun e => (e.peer, e.packet.id)) =
      [(1, ⟨7⟩), (2, ⟨7⟩)] := by decide +kernel
  obtain ⟨a, rest, whole, first, later⟩ := List.map_eq_cons_iff.mp both
  obtain ⟨b, none, rfl, second, last⟩ := List.map_eq_cons_iff.mp later
  cases List.map_eq_nil_iff.mp last
  obtain ⟨peer, id⟩ := Prod.mk.inj first
  obtain ⟨peer', id'⟩ := Prod.mk.inj second
  have oldest : twoNamesakes.oldest? a.packet.id = some a := by simp [oldest?, whole]
  refine ⟨a, b, whole, peer, peer', id.trans id'.symm, ?_⟩
  rw [← peer']
  refine twoNamesakes.retransmission_spares [] (by simp [whole]) (.inl ?_) fun _ => ?_
  · rw [peer, peer']
    decide
  · rw [oldest]
    rfl

set_option maxRecDepth 10000 in
/-- The event of the younger message is taken to be for the older, which is sent in its place. -/
theorem retransmission_of_namesake :
    let n := twoNamesakes
    let n' := (n.fire (.retransmit ⟨7⟩) []).1
    n.radio.scheduled.map (·.event) = [.retransmit ⟨7⟩, .retransmit ⟨7⟩] ∧
      ∃ a ∈ n.radio.unacknowledged, ∃ b ∈ n.radio.unacknowledged,
        a.peer = 2 ∧ b.peer = 1 ∧ a.packet.id = ⟨7⟩ ∧
        (n'.radio.transmissions.drop n.radio.transmissions.length).map
          (fun t => (t.peer, t.packet)) = [(b.peer, b.packet)] ∧
        a ∈ n'.radio.unacknowledged ∧ b ∉ n'.radio.unacknowledged := by
  decide +kernel

end Node
end CoapNode
