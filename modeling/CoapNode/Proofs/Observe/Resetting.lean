import CoapNode.Proofs.Observe.Departure
import CoapNode.Proofs.Node.Acknowledging
/-! A peer that resets the latest notification it got stops observing, wherever the radio finds
out what was reset: among the messages that await an acknowledgement, or at the resource, which
has noted an id for each observer. -/
namespace CoapNode

/-! ## Resets -/

namespace Node

variable {n : Node} {peer : NodeId} {packet : Message}

theorem receive_reset (n : Node) {bytes : List UInt8} (services : List Service)
    (other : peer ≠ n.radio.self) (read : Packet.decode 128 bytes = .ok packet)
    (kind : packet.kind = .reset) : (n.receive peer bytes services).2.2 =
      .ok ((n.heard peer packet).receiveReply peer packet services).2.2 := by
  unfold receive
  rw [if_neg other]
  simp only [read, kind]
  rfl

theorem receiveReply_handled (kind : packet.kind = .reset) (before after : List Service)
    (s : Observable)
    (known : (∃ e ∈ n.radio.unacknowledged, e.peer = peer ∧ e.packet.id = packet.id) ∨
      ∃ o ∈ s.observers, o.peer = peer ∧ o.lastId = packet.id) :
    (n.receiveReply peer packet (before ++ .observable s :: after)).2.2 = .handled := by
  unfold receiveReply
  rcases takeUnacknowledged_cases n.radio peer packet.id with
    ⟨taken, absent⟩ | ⟨i, e, -, -, -, taken⟩
  · obtain ⟨o, member, mine, noted⟩ := known.resolve_left fun ⟨e, sent, same⟩ => absent e sent same
    have knows : ∀ r, (s.forgetNotified r peer packet.id).2.2 = true := by
      intro r
      rcases s.forgetNotified_cases r peer packet.id with ⟨none, -⟩ | ⟨_, -, -, -, same⟩
      · exact absurd ⟨mine, noted⟩ (none o member)
      · rw [same]
    simp only [taken, kind, askUnmatched_append, askUnmatched, Service.unmatchedReset, knows]
    simp
  · simp only [taken, kind]

end Node

namespace Publisher

variable {p : Publisher} {ledger : List Notice} {o : Observer}

theorem gone_of_forget {s : Observable} (table : Table s ledger) (member : o ∈ s.observers)
    (r : Radio) : (s.forget r o.peer o.token).1.Gone o := by
  intro y kept same
  obtain ⟨old, other⟩ := List.mem_filter.mp kept
  rw [table.eq_of_peer old member same] at other
  simp at other

theorem visit?_reset {peer : NodeId} {bytes : List UInt8} {packet : Message}
    (before after : List Service) (other : peer ≠ p.node.radio.self)
    (read : Packet.decode 128 bytes = .ok packet) (kind : packet.kind = .reset) :
    p.visit? (.receive peer bytes before after) =
      some ((p.node.heard peer packet).tellsReset peer packet before) := by
  simp only [visit?, if_neg other, read, kind]

/-- A reset of the latest notification to an observer is handled, and the observer leaves. The
notification rode on an acknowledgement, was sent by the resource on its own, or still awaits its
acknowledgement; and no other message to the peer that does has the same id. -/
theorem gone_of_reset (table : Table p.resource ledger) (member : o ∈ p.resource.observers)
    (other : o.peer ≠ p.node.radio.self) {x : Notice} (told : o.Told p.resource.renderer x)
    {bytes : List UInt8} {packet : Message} (read : Packet.decode 128 bytes = .ok packet)
    (kind : packet.kind = .reset) (id : packet.id = x.packet.id)
    (noted : x.request = none ∨ x.packet.kind = .acknowledgement ∨
      ∃ e ∈ p.node.radio.unacknowledged, e.peer = o.peer ∧ e.packet.id = x.packet.id)
    (clear : ∀ e ∈ p.node.radio.unacknowledged, e.peer = o.peer → e.packet.id = x.packet.id →
      e.packet.token = o.token) (before after : List Service) :
    (p.node.receive o.peer bytes (before ++ .observable p.resource :: after)).2.2 = .ok .handled ∧
      (p.step (.receive o.peer bytes before after)).resource.Gone o := by
  -- the entry has the id noted, except for an answer under an id of its own
  have known : (∃ e ∈ p.node.radio.unacknowledged, e.peer = o.peer ∧ e.packet.id = packet.id) ∨
      o.lastId = packet.id := by
    rw [id]
    rcases told.id with same | ⟨answer, own⟩
    · exact .inr same.symm
    · rcases noted with plain | rides | waits
      · rw [plain] at answer
        cases answer
      · exact absurd rides own
      · exact .inl waits
  constructor
  · rw [p.node.receive_reset _ other read kind]
    refine congrArg Except.ok (Node.receiveReply_handled kind before after p.resource ?_)
    exact known.imp_right fun same => ⟨o, member, rfl, same⟩
  · rw [p.step_resource, visit?_reset before after other read kind, Option.elim_some]
    rcases (p.node.heard o.peer packet).tellsReset_cases o.peer packet before with
      ⟨unknown, r, same⟩ | ⟨e, sent, goes, named, r, same⟩
    · have mine : o.lastId = packet.id :=
        known.resolve_left fun ⟨e, sent, both⟩ => unknown e sent both
      rw [same]
      simp only [Visit.done]
      rcases p.resource.forgetNotified_cases r o.peer packet.id with
        ⟨none, -⟩ | ⟨y, found, peer, -, drops⟩
      · exact absurd ⟨rfl, mine⟩ (none o member)
      · rw [drops, table.eq_of_peer found member peer]
        exact gone_of_forget table member r
    · rw [same, clear e sent goes (named.trans id)]
      exact gone_of_forget table member r

/-- Whatever a node and an observable resource went through, every observer has a latest
notification, and if its peer resets that, the reset is handled and the observer leaves: unless
the notification answered a request without riding on the acknowledgement and is not waited for
any more, or another message under its id is waited for. The peer is not the node itself, in whose
name only a handler can make a request. -/
theorem reset_unsubscribes {n : Node} {r : Radio} {path : String} {handler : Handler}
    {status : Reading} {renderer : Renderer} {s : Observable}
    (created : Observable.create n.radio path handler status renderer = (r, .ok s))
    (elapsed : List TimerEvent) (turns : List Turn) :
    let start : Publisher := ⟨{ n with radio := r }, s, elapsed⟩
    let p := start.after turns
    ∀ o ∈ p.resource.observers, ∃ x, Notice.latest? (start.ledger turns) o.peer = some x ∧
      ∀ bytes packet before after, o.peer ≠ p.node.radio.self →
        Packet.decode 128 bytes = .ok packet → packet.kind = .reset → packet.id = x.packet.id →
        (x.request = none ∨ x.packet.kind = .acknowledgement ∨
          ∃ e ∈ p.node.radio.unacknowledged, e.peer = o.peer ∧ e.packet.id = x.packet.id) →
        (∀ e ∈ p.node.radio.unacknowledged, e.peer = o.peer → e.packet.id = x.packet.id →
          e.packet.token = o.token) →
        (p.node.receive o.peer bytes (before ++ .observable p.resource :: after)).2.2 =
            .ok .handled ∧
          ∀ y ∈ (p.step (.receive o.peer bytes before after)).resource.observers,
            y.peer ≠ o.peer := by
  intro start p o member
  have empty := (created_observers created).1
  have table := table_after (p := start) (table_of_empty empty) turns
  obtain ⟨x, latest, told⟩ := table.told o member
  refine ⟨x, latest, fun bytes packet before after other read kind id noted clear => ?_⟩
  exact gone_of_reset table member other told read kind id noted clear before after

set_option maxRecDepth 10000 in
/-- The notification of a new status awaits its acknowledgement, and is reset instead. -/
theorem reset_unsubscribes_waiting :
    let created := Observable.create (Radio.start 0 {} {}) "a" (.fixed []) (.natural 5)
      Renderer.plain
    let turns := [.receive 1 [0x43, 1, 0, 9, 0x91, 97, 0x10, 0x11, 7] [] [],
      .call (.setStatus (.natural 6))]
    let reset : List UInt8 := [0x70, 0, 0x3B, 0x6C]
    ∃ r s, created = (r, .ok s) ∧
      let start : Publisher := ⟨⟨r, [], []⟩, s, []⟩
      let p := start.after turns
      ∃ o ∈ p.resource.observers, ∃ x, Notice.latest? (start.ledger turns) o.peer = some x ∧
        x.packet.id = ⟨0x3B6C⟩ ∧
        (p.node.receive o.peer reset ([] ++ .observable p.resource :: [])).2.2 = .ok .handled ∧
        ∀ y ∈ (p.step (.receive o.peer reset [] [])).resource.observers, y.peer ≠ o.peer := by
  refine ⟨_, _, rfl, ?_⟩
  intro start p
  have present : 0 < p.resource.observers.length := by decide +kernel
  obtain ⟨o, member⟩ := List.exists_mem_of_length_pos present
  have peer : o.peer = 1 := by
    have all : p.resource.observers.all (·.peer == 1) = true := by decide +kernel
    simpa using List.all_eq_true.mp all o member
  have token : o.token = ⟨[7], by decide⟩ := by
    have all : p.resource.observers.all (·.token == ⟨[7], by decide⟩) = true := by decide +kernel
    simpa using List.all_eq_true.mp all o member
  obtain ⟨x, latest, resets⟩ := reset_unsubscribes (n := ⟨Radio.start 0 {} {}, [], []⟩) rfl [] _ o
    member
  have last := latest
  rw [peer] at last
  have id : x.packet.id = ⟨0x3B6C⟩ ∧ x.request.isNone = true := by
    have found : (Notice.latest? (start.ledger [.receive 1 [0x43, 1, 0, 9, 0x91, 97, 0x10, 0x11, 7]
        [] [], .call (.setStatus (.natural 6))]) 1).any
          (fun x => x.packet.id == ⟨0x3B6C⟩ && x.request.isNone) = true := by decide +kernel
    rw [last] at found
    simpa using found
  have waits : p.node.radio.unacknowledged.all (·.packet.token == ⟨[7], by decide⟩) = true := by
    decide +kernel
  obtain ⟨packet, read, head⟩ := Node.exists_read [0x70, 0, 0x3B, 0x6C]
    (fun p => p.kind == .reset && p.id == ⟨0x3B6C⟩) (by decide +kernel)
  simp only [Bool.and_eq_true, beq_iff_eq] at head
  refine ⟨o, member, x, latest, id.1, ?_⟩
  refine resets _ packet [] [] (by rw [peer]; decide +kernel) read head.1 (head.2.trans id.1.symm)
    (.inl (Option.isNone_iff_eq_none.mp id.2)) fun e sent _ _ => ?_
  rw [token]
  simpa using List.all_eq_true.mp waits e sent

set_option maxRecDepth 10000 in
/-- The notification that answers a request without riding on an acknowledgement has an id of its
own, but the request's is noted for it: its reset is not known to anyone. -/
theorem reset_of_own_answer :
    let created := Observable.create (Radio.start 0 {} {}) "a" (.fixed []) (.natural 5)
      Renderer.plain
    let turns := [.receive 1 [0x53, 1, 0, 9, 0x91, 97, 0x10, 0x11, 7] [] []]
    let reset : List UInt8 := [0x70, 0, 0x3B, 0x6C]
    ∃ r s, created = (r, .ok s) ∧
      let start : Publisher := ⟨⟨r, [], []⟩, s, []⟩
      let p := start.after turns
      (Notice.latest? (start.ledger turns) 1).map (fun x => (x.packet.kind, x.packet.id)) =
          some (.nonConfirmable, ⟨0x3B6C⟩) ∧
        (p.node.receive 1 reset [.observable p.resource]).2.2.toOption.any (·.isHandled) = false ∧
        (p.step (.receive 1 reset [] [])).resource.observers.map (fun o => (o.peer, o.lastId)) =
          [(1, ⟨9⟩)] := by
  refine ⟨_, _, rfl, ?_⟩
  decide +kernel

end Publisher
end CoapNode
