import CoapNode.Proofs.Node.Acknowledging
import CoapNode.Proofs.Observe.Keeping
import CoapNode.Proofs.Observe.Table
/-! What a peer can do to another by sending datagrams. Every table is shared by all peers, and
each is searched by a key that names a peer; whatever is written, replaced or dropped while a
datagram is handled stands under the peer that sent it. -/
namespace CoapNode

/-! ## Entries apart from those selected -/

section

variable {α : Type} {xs : List α} {p : α → Bool} {i : Nat} {x y : α}

theorem exists_middle (here : xs[i]? = some x) :
    ∃ before after, xs = before ++ x :: after ∧ before.length = i := by
  obtain ⟨inside, rfl⟩ := List.getElem?_eq_some_iff.mp here
  refine ⟨xs.take i, xs.drop (i + 1), ?_, List.length_take_of_le (Nat.le_of_lt inside)⟩
  rw [← List.drop_eq_getElem_cons inside, List.take_append_drop]

theorem filter_set_of_neg (here : xs[i]? = some x) (old : p x = false) (new : p y = false) :
    (xs.set i y).filter p = xs.filter p := by
  obtain ⟨before, after, rfl, rfl⟩ := exists_middle here
  simp [old, new]

theorem filter_eraseIdx_of_neg (here : xs[i]? = some x) (old : p x = false) :
    (xs.eraseIdx i).filter p = xs.filter p := by
  obtain ⟨before, after, rfl, rfl⟩ := exists_middle here
  simp [List.eraseIdx_append_of_length_le, old]

theorem filter_modify_of_neg {f : α → α}
    (old : ∀ x, xs[i]? = some x → p x = false ∧ p (f x) = false) :
    (xs.modify i f).filter p = xs.filter p := by
  rw [List.modify_eq_set_getElem?]
  cases here : xs[i]? with
  | none => rfl
  | some x => exact filter_set_of_neg here (old x here).1 (old x here).2

end

/-! ## Histories -/

namespace Radio

/-- What concerns everybody but a peer is the same: the messages that await an answer of others,
and what is remembered of the messages that others sent. -/
structure Spares (r s : Radio) (peer : NodeId) : Prop where
  unacknowledged : s.unacknowledged.filter (·.peer != peer) =
    r.unacknowledged.filter (·.peer != peer)
  remembered : s.remembered.filter (·.peer != peer) = r.remembered.filter (·.peer != peer)

variable {r s t : Radio} {m m' : Received} {peer : NodeId}

theorem Spares.refl (r : Radio) (peer : NodeId) : r.Spares r peer := ⟨rfl, rfl⟩

theorem Spares.trans (h : r.Spares s peer) (h' : s.Spares t peer) : r.Spares t peer :=
  ⟨h'.unacknowledged.trans h.unacknowledged, h'.remembered.trans h.remembered⟩

/-- What concerns others is the same, short of the oldest message remembered, which may have made
room when the history was full. -/
def MakesRoom (r s : Radio) (peer : NodeId) : Prop :=
  ∃ kept, (kept = r.remembered ∨
      receivedHistory ≤ r.remembered.length ∧ kept = r.remembered.drop 1) ∧
    Spares { r with remembered := kept } s peer

theorem Spares.makesRoom (h : r.Spares s peer) : r.MakesRoom s peer :=
  ⟨r.remembered, .inl rfl, h⟩

theorem MakesRoom.after_note {severity : Severity} {text : String}
    (h : (r.note severity text).MakesRoom s peer) : r.MakesRoom s peer := by
  obtain ⟨kept, made, spares⟩ := h
  exact ⟨kept, made, spares.unacknowledged, spares.remembered⟩

theorem Idle.spares (h : r.Idle s) (peer : NodeId) : r.Spares s peer :=
  ⟨by rw [h.unacknowledged], by rw [h.remembered]⟩

theorem transmit_spares (r : Radio) (target : NodeId) (packet : Message) (activity : Activity)
    (peer : NodeId) : r.Spares (r.transmit target packet activity).1 peer := by
  by_cases fits : packet.serializedLength ≤ datagramBuffer
  · obtain ⟨s, whole, _, _, rfl⟩ := r.transmit_of_fits target activity fits
    rw [whole]
    exact ⟨rfl, rfl⟩
  · rw [transmit_of_long target activity (Nat.lt_of_not_le fits)]
    exact .refl r peer

theorem track_spares (r : Radio) (peer : NodeId) (packet : Message) :
    r.Spares (r.track peer packet) peer := by
  unfold track
  split
  · exact ⟨rfl, rfl⟩
  · exact ⟨by simp [schedule], rfl⟩

theorem send_spares (r : Radio) (peer : NodeId) (packet : Message) :
    r.Spares (r.send peer packet).1 peer := by
  have offered := r.transmit_spares peer packet (.sending packet.id) peer
  unfold send
  simp only
  split
  · exact (r.note_idle _ _).spares peer
  split
  · next failed => rw [failed] at offered; exact offered
  · next done =>
    rw [done] at offered
    split
    · exact offered.trans (track_spares _ peer packet)
    · exact offered

theorem storeResponse_spares (r : Radio) (peer : NodeId) (id : MessageId) (response : Message) :
    r.Spares (r.storeResponse peer id response) peer := by
  unfold storeResponse
  split
  · exact .refl r peer
  next i found =>
  refine ⟨rfl, filter_modify_of_neg fun e here => ?_⟩
  obtain ⟨inside, same, -⟩ := List.findIdx?_eq_some_iff_getElem.mp found
  obtain ⟨-, rfl⟩ := List.getElem?_eq_some_iff.mp here
  simp only [Bool.and_eq_true, beq_iff_eq] at same
  simp [same.1]

theorem respond_spares (r : Radio) (m : Received) (response : Message) :
    r.Spares (r.respond m response).1 m.peer := by
  unfold respond
  split
  · exact .refl r m.peer
  next packet _ =>
  have sent := ((r.addressResponse_addresses m packet).1.spares m.peer).trans
    (send_spares (r.addressResponse m packet).1 m.peer (r.addressResponse m packet).2)
  simp only
  split
  · next failed => rw [failed] at sent; exact sent
  · next done =>
    rw [done] at sent
    exact sent.trans (storeResponse_spares _ _ _ _)

theorem light_spares (peer : NodeId) : Light fun r s => r.Spares s peer where
  refl r := .refl r peer
  trans := Spares.trans
  note r severity text := (r.note_idle severity text).spares peer
  transmit r target packet activity := r.transmit_spares target packet activity peer
  drawId r := r.drawId_idle.spares peer

/-- A message in the hands of services concerns its own peer alone, if nothing else is sent and it
is nobody else's in the end. -/
theorem Conduct.spares {deeds : List Deed} (h : Conduct r m deeds s m') (sender : m.peer = peer)
    (unsent : ∀ taken, .sent taken ∉ deeds)
    (kept : ∀ packet target, .rewritten packet target ∈ deeds → target = peer) :
    r.Spares s peer ∧ m'.peer = peer := by
  induction h with
  | idle still => exact ⟨still.spares peer, sender⟩
  | respond r m response =>
    exact ⟨sender ▸ r.respond_spares m response,
      (r.respond_responds m response).message.1.trans sender⟩
  | acknowledge r m =>
    refine ⟨(light_spares peer).acknowledge r m, ?_⟩
    rw [(r.acknowledge_passes m).2]
    exact sender
  | mark r | markAnswered r | unmark r => exact ⟨.refl r peer, sender⟩
  | rewrite r m packet target =>
    exact ⟨.refl r peer, kept packet target (List.mem_singleton_self _)⟩
  | send r m peer mode packet => exact absurd (List.mem_singleton_self _) (unsent _)
  | schedule r m after event => exact ⟨⟨rfl, rfl⟩, sender⟩
  | trans _ _ one two =>
    obtain ⟨first, sender'⟩ := one sender (fun taken member =>
      unsent taken (List.mem_append_left _ member)) fun packet target member =>
      kept packet target (List.mem_append_left _ member)
    obtain ⟨second, sender''⟩ := two sender' (fun taken member =>
      unsent taken (List.mem_append_right _ member)) fun packet target member =>
      kept packet target (List.mem_append_right _ member)
    exact ⟨first.trans second, sender''⟩

theorem takeUnacknowledged_spares (r : Radio) (peer : NodeId) (id : MessageId) :
    r.Spares (r.takeUnacknowledged peer id).1 peer := by
  rcases Node.takeUnacknowledged_cases r peer id with ⟨taken, -⟩ | ⟨i, e, found, goes, -, taken⟩
  · rw [taken]
    exact .refl r peer
  · rw [taken]
    exact ⟨filter_eraseIdx_of_neg found (by simp [goes]), rfl⟩

theorem remember_makesRoom (r : Radio) (peer : NodeId) (id : MessageId) :
    r.MakesRoom (r.remember peer id) peer := by
  by_cases full : receivedHistory ≤ r.remembered.length
  · exact ⟨_, .inr ⟨full, rfl⟩, rfl, by simp [remember, full]⟩
  · exact ⟨_, .inl rfl, rfl, by simp [remember, full]⟩

end Radio

/-- Whoever performs it only answers the message at hand, which stays this peer's. -/
def Action.keepsTo (peer : NodeId) : Action → Bool
  | .send _ _ _ => false
  | .rewrite _ target => target == peer
  | _ => true

theorem JournalEntry.strays_of_deed {e : JournalEntry} {deed : Deed} (peer : NodeId)
    (did : e.deed? = some deed) : ∃ a, e.action? = some a ∧
      (∀ taken, deed = .sent taken → a.keepsTo peer = false) ∧
      ∀ packet target, deed = .rewritten packet target → a.keepsTo peer = (target == peer) := by
  cases e with
  | acted a result acknowledged answered =>
    cases a with
    | send target mode packet =>
      cases result with
      | attempted result =>
        cases did
        exact ⟨_, rfl, fun _ _ => rfl, by simp⟩
      | _ => cases did
    | acknowledge | markAcknowledged | unmark | rewrite | schedule =>
      cases did
      exact ⟨_, rfl, by simp, by simp [Action.keepsTo]⟩
    | _ => cases did
  | _ => cases did

namespace Node

variable {n n' : Node} {m m' : Received}

theorem deed_of_polite {peer : NodeId} (polite : ∀ a ∈ n'.performedSince n, a.keepsTo peer = true)
    {deed : Deed} (member : deed ∈ n'.deedsSince n) :
    (∀ taken, deed ≠ .sent taken) ∧
      ∀ packet target, deed = .rewritten packet target → target = peer := by
  obtain ⟨e, listed, did⟩ := List.mem_filterMap.mp member
  obtain ⟨a, acted, sends, names⟩ := e.strays_of_deed peer did
  have keeps := polite a (List.mem_filterMap.mpr ⟨e, listed, acted⟩)
  refine ⟨fun taken same => ?_, fun packet target same => ?_⟩
  · rw [sends taken same] at keeps
    cases keeps
  · rw [names packet target same] at keeps
    exact beq_iff_eq.mp keeps

/-- What concerns others is the same if no handler strays from the message of the peer. -/
theorem Serves.spares (h : n.Serves m n' m') {peer : NodeId} (sender : m.peer = peer)
    (polite : ∀ a ∈ n'.performedSince n, a.keepsTo peer = true) :
    n.radio.Spares n'.radio peer := by
  obtain ⟨entries, journal, -, conduct⟩ := h
  have deeds : n'.deedsSince n = entries.filterMap (·.deed?) := by
    rw [deedsSince, journal, List.drop_left]
  rw [← deeds] at conduct
  exact (conduct.spares sender (fun taken member => (deed_of_polite polite member).1 taken rfl)
    fun packet target member => (deed_of_polite polite member).2 packet target rfl).1

theorem rekeyed_of_polite {peer : NodeId}
    (polite : ∀ a ∈ n'.performedSince n, a.keepsTo peer = true) :
    ∀ key ∈ n'.rekeyedSince n, key.1 = peer := by
  intro key member
  obtain ⟨deed, listed, names⟩ := List.mem_filterMap.mp member
  cases deed with
  | rewritten packet target =>
    cases names
    exact (deed_of_polite polite listed).2 packet target rfl
  | _ => cases names

theorem receiveReply_spares (n : Node) (peer : NodeId) (packet : Message)
    (services : List Service) :
    n.radio.Spares (n.receiveReply peer packet services).1.radio peer := by
  have taken := n.radio.takeUnacknowledged_spares peer packet.id
  unfold receiveReply
  simp only
  generalize n.radio.takeUnacknowledged peer packet.id = found at taken ⊢
  obtain ⟨r, sent⟩ := found
  split
  · have noted := r.note_idle .debug (packet.id.inspect ++ " was reset by " ++ toString peer)
    exact taken.trans ((noted.trans (Service.forEach_related Radio.Idle.refl Radio.Idle.trans
      (fun s _ n => s.peerReset_idle n peer _) (Node.note { n with radio := r } .debug
        (packet.id.inspect ++ " was reset by " ++ toString peer)))).spares peer)
  · have asked := askUnmatched_idle { n with radio := r } peer packet.id services
    exact taken.trans (asked.spares peer)
  · split <;> exact taken
  · exact taken

theorem receiveRequest_spares (n : Node) (m : Received) (services : List Service) :
    let n' := (n.receiveRequest m services).1
    (∀ a ∈ n'.performedSince n, a.keepsTo m.peer = true) → n.radio.Spares n'.radio m.peer := by
  obtain ⟨mid, m', serves, outcome⟩ := n.receiveRequest_cases m services
  intro n' polite
  have journal : n'.performedSince n = mid.performedSince n := by
    rcases outcome with ⟨node, -⟩ | ⟨node, -⟩ <;>
      simp only [performedSince, n', node, finishRequest_journal]
  rw [journal] at polite
  have first := serves.spares rfl polite
  rcases outcome with ⟨node, -⟩ | ⟨node, -⟩
  · rw [show n' = mid from node]
    exact first
  · rw [show n' = (mid.finishRequest m.packet m').1 from node]
    exact first.trans ((Radio.light_spares m.peer).finishRequest mid m.packet m')

theorem receiveNew_spares (n : Node) (peer : NodeId) (packet : Message)
    (services : List Service) :
    let n' := (n.receiveNew peer packet services).1
    (∀ a ∈ n'.performedSince n, a.keepsTo peer = true) → n.radio.Spares n'.radio peer := by
  have light := Radio.light_spares peer
  unfold receiveNew
  simp only
  split
  · exact fun _ => light.receivePing n peer packet
  split
  · exact n.receiveRequest_spares (.fresh packet peer) services
  split
  · exact fun _ => light.receiveResponse n (.fresh packet peer)
  · exact fun _ => .refl _ peer

theorem receiveOriginal_makesRoom (n : Node) (peer : NodeId) (packet : Message)
    (services : List Service) :
    let n' := (n.receiveOriginal peer packet services).1
    (∀ a ∈ n'.performedSince n, a.keepsTo peer = true) → n.radio.MakesRoom n'.radio peer := by
  unfold receiveOriginal
  split
  · exact fun _ =>
      ((Radio.light_spares peer).receiveDuplicate n.radio peer packet _).makesRoom
  · intro n' polite
    obtain ⟨kept, made, spares⟩ := n.radio.remember_makesRoom peer packet.id
    exact ⟨kept, made, spares.trans
      (receiveNew_spares { n with radio := n.radio.remember peer packet.id } peer packet services
        polite)⟩

theorem receive_makesRoom (n : Node) (peer : NodeId) (bytes : List UInt8)
    (services : List Service) :
    let n' := (n.receive peer bytes services).1
    (∀ a ∈ n'.performedSince n, a.keepsTo peer = true) → n.radio.MakesRoom n'.radio peer := by
  have light := Radio.light_spares peer
  unfold receive
  split
  · exact fun _ => (light.note n.radio _ _).makesRoom
  split
  · exact fun _ => (light.reject n.radio peer _).makesRoom
  next packet _ =>
  have noted := light.note n.radio .trace ("<- " ++ toString peer ++ " " ++ packet.summary)
  have replied := noted.trans ((n.heard peer packet).receiveReply_spares peer packet services)
  have original := fun polite => Radio.MakesRoom.after_note
    ((n.heard peer packet).receiveOriginal_makesRoom peer packet services polite)
  simp only
  split
  · exact fun _ => replied.makesRoom
  · exact fun _ => replied.makesRoom
  · exact original
  · exact original

end Node

/-! ## Tables of observers -/

/-- The table of a service without the entries of a peer. -/
def Service.observersBut (s : Service) (peer : NodeId) : List Observer :=
  match s with
  | observable s => s.observers.filter (·.peer != peer)
  | _ => []

namespace Observable

theorem forget_observersBut (s : Observable) (r : Radio) (peer : NodeId) (token : ShortBytes) :
    (s.forget r peer token).1.observers.filter (·.peer != peer) =
      s.observers.filter (·.peer != peer) := by
  unfold forget
  rw [List.filter_filter]
  refine List.filter_congr fun o _ => ?_
  by_cases mine : o.peer = peer <;> simp [mine]

theorem forgetNotified_observersBut (s : Observable) (r : Radio) (peer : NodeId)
    (id : MessageId) : (s.forgetNotified r peer id).1.observers.filter (·.peer != peer) =
      s.observers.filter (·.peer != peer) := by
  rcases s.forgetNotified_cases r peer id with ⟨-, same⟩ | ⟨o, -, -, -, same⟩
  · rw [same]
  · rw [same]
    exact s.forget_observersBut r peer o.token

theorem offer_observersBut (s : Observable) (n : Node) (m : Received) :
    (s.offer n m).1.observers.filter (·.peer != m.peer) =
      s.observers.filter (·.peer != m.peer) := by
  have serves := s.offer_cases n m
  generalize (s.offer n m).1 = s' at serves
  generalize (s.offer n m).2.1 = n' at serves
  cases serves with
  | apart | failed => rfl
  | stopped => simp [without, List.filter_filter]
  | @registered r t conditions now registers answers =>
    rw [(s.enter_frame r (s.entry m now conditions)).1]
    rcases s.putObserver_cases r (s.entry m now conditions) with
      ⟨i, inside, same, put⟩ | ⟨-, put⟩
    · rw [put]
      have peer : s.observers[i].peer = m.peer := same
      exact filter_set_of_neg (List.getElem?_eq_getElem inside) (by simp [peer]) (by simp [entry])
    · rw [put]
      simp [entry]

end Observable

namespace Service

variable {peer : NodeId}

theorem offer_observersBut (s : Service) (n : Node) (m : Received) :
    (s.offer n m).1.observersBut m.peer = s.observersBut m.peer := by
  cases s with
  | plain e =>
    unfold offer
    simp only
    split <;> rfl
  | observable s => exact s.offer_observersBut n m
  | probe p => rfl

theorem peerReset_observersBut (s : Service) (n : Node) (token : ShortBytes) :
    (s.peerReset n peer token).1.observersBut peer = s.observersBut peer := by
  cases s with
  | observable s => exact s.forget_observersBut n.radio peer token
  | plain e => rfl
  | probe p => rfl

theorem unmatchedReset_observersBut (s : Service) (n : Node) (id : MessageId) :
    (s.unmatchedReset n peer id).1.observersBut peer = s.observersBut peer := by
  cases s with
  | observable s => exact s.forgetNotified_observersBut n.radio peer id
  | plain e => rfl
  | probe p => rfl

theorem withstands_observersBut (peer : NodeId) : Withstands (·.observersBut peer) (· = peer) where
  offer s n _ sender := sender ▸ s.offer_observersBut n _
  peerReset s n _ sender token := sender ▸ s.peerReset_observersBut n token
  unmatchedReset s n _ sender id := sender ▸ s.unmatchedReset_observersBut n id

end Service

namespace Node

/-- Whatever a peer sends, the others find everything as it was, in the same order: the messages
that await their answers, their entries in every table of observers, and what is remembered of their
messages, short of the oldest message remembered, which makes room when the history is full. This
takes handlers that only answer the message, which stays its peer's. -/
theorem receive_leaves_others (n : Node) (peer : NodeId) (bytes : List UInt8)
    (services : List Service) :
    let received := n.receive peer bytes services
    (∀ a ∈ received.1.performedSince n, a.keepsTo peer = true) →
      received.1.radio.unacknowledged.filter (·.peer != peer) =
          n.radio.unacknowledged.filter (·.peer != peer) ∧
        received.2.1.map (·.observersBut peer) = services.map (·.observersBut peer) ∧
        ∃ kept, (kept = n.radio.remembered ∨
            receivedHistory ≤ n.radio.remembered.length ∧ kept = n.radio.remembered.drop 1) ∧
          received.1.radio.remembered.filter (·.peer != peer) =
            kept.filter (·.peer != peer) := by
  intro received polite
  obtain ⟨kept, made, spares⟩ := n.receive_makesRoom peer bytes services polite
  exact ⟨spares.unacknowledged,
    receive_keeps (Service.withstands_observersBut peer) n rfl bytes services
      (rekeyed_of_polite polite), kept, made, spares.remembered⟩

def watched : Publisher :=
  Publisher.after ⟨⟨((Radio.start 0 {} {}).register "a").1, [], []⟩,
      ⟨⟨"a", some ⟨0⟩, false, .fixed [.echoPath]⟩, .natural 5, 60, true, [], 1, 0,
        Renderer.plain⟩, []⟩
    [.receive 1 [0x43, 1, 0, 9, 0x91, 97, 0x10, 0x11, 7] [] [], .call (.setStatus (.natural 6))]

set_option maxRecDepth 10000 in
/-- A request of peer 2, which the handler answers. -/
theorem receive_leaves_observer :
    let received := watched.node.receive 2 [0x41, 1, 0, 9, 0x91, 97] [.observable watched.resource]
    received.1.performedSince watched.node = [.echoPath] ∧
      (received.1.radio.unacknowledged.filter (·.peer != 2)).map (·.packet.payload) = [[54]] ∧
      (received.2.1.map (·.observersBut 2)).map (·.map (·.token.bytes)) = [[[7]]] ∧
      (received.1.radio.remembered.filter (·.peer != 2)).map (·.id) = [⟨9⟩] := by
  intro received
  have performed : received.1.performedSince watched.node = [.echoPath] := by decide +kernel
  have polite : ∀ a ∈ received.1.performedSince watched.node, a.keepsTo 2 = true := by
    rw [performed]
    decide
  obtain ⟨sent, observers, kept, made, remembered⟩ :=
    watched.node.receive_leaves_others 2 _ _ polite
  have short : ¬ receivedHistory ≤ watched.node.radio.remembered.length := by decide +kernel
  have same : kept = watched.node.radio.remembered := made.resolve_right fun full => short full.1
  refine ⟨performed, ?_, ?_, ?_⟩
  · rw [sent]
    decide +kernel
  · rw [observers]
    decide +kernel
  · rw [remembered, same]
    decide +kernel

end Node
end CoapNode
