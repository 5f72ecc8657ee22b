import CoapNode.Proofs.Node.Rejecting
import CoapNode.Proofs.Node.Responses
import CoapNode.Proofs.Observe.Hindering
/-! Every message fits its datagram. A packet's options and payload share its arena, so that the
buffer a radio writes into has room for all of them; and what a radio keeps to send it again, or to
answer a duplicate, was sent before. Hence the codec can keep a message from being built, but no
message that was built from being written. -/
namespace CoapNode

/-! ## Failures of other causes -/

/-- Whatever went wrong, the codec had no part in it. -/
def Written {α : Type} (result : Except RuntimeError α) : Prop :=
  ∀ e, result = .error e → e.codec? = none

theorem RuntimeError.codec?_eq_some {e : RuntimeError} {c : CodecError} :
    e.codec? = some c ↔ e.cause = .codec c := by
  obtain ⟨cause, activity⟩ := e
  cases cause <;> simp [codec?]

section

variable {α β : Type}

theorem Written.ok (a : α) : Written (.ok a : Except RuntimeError α) := by
  rintro e ⟨⟩

theorem Written.error {e : RuntimeError} (written : Written (.error e : Except RuntimeError α)) :
    Written (.error e : Except RuntimeError β) := by
  rintro e' ⟨⟩
  exact written e rfl

theorem written_of_refusal (refusal : Option Nat) (activity : Activity) (a : α) :
    Written (match refusal with
      | none => .ok a
      | some code => .error ⟨.transport code, activity⟩) := by
  cases refusal with
  | none => exact .ok a
  | some code =>
    rintro e ⟨⟩
    rfl

end

theorem Radio.transmit_written (r : Radio) {packet : Message} (peer : NodeId) (activity : Activity)
    (fits : packet.serializedLength ≤ datagramBuffer) :
    Written (r.transmit peer packet activity).2 := by
  obtain ⟨s, sent, -⟩ := r.transmit_of_fits peer activity fits
  rw [sent]
  exact written_of_refusal r.refusal activity ()

/-! ## Messages of one's own and answers -/

def Packet.Reached {capacity : Nat} (p : Packet capacity) : Prop :=
  ∃ edits, p = Packet.reach capacity edits

theorem Packet.Reached.edit {capacity : Nat} {p : Packet capacity} (h : p.Reached)
    (e : PacketEdit) : (p.edit e).Reached := by
  obtain ⟨edits, rfl⟩ := h
  exact ⟨edits ++ [e], by simp [Packet.reach]⟩

theorem Packet.Reached.edited {capacity : Nat} {p q : Packet capacity} (h : p.Reached)
    (change : PacketEdit) {e : Edit capacity} (runs : p.edit change = (p.attempt e).1)
    (done : p.edited e = .ok q) : q.Reached := by
  have reached := h.edit change
  rw [runs, Packet.edited_eq_ok.mp done] at reached
  exact reached

theorem Packet.Reached.canonical {capacity : Nat} {p : Packet capacity} (h : p.Reached) :
    p.Canonical := by
  obtain ⟨edits, rfl⟩ := h
  exact Packet.reach_canonical capacity edits

theorem Observable.notification_reached {s : Observable} {token : ShortBytes} {packet : Message}
    (built : s.notification token = .ok packet) : packet.Reached := by
  obtain ⟨payload, numbered, marked, aged, -, observed, tokened, stated, filled⟩ :=
    notification_steps built
  have fresh : (Packet.fresh 128).Reached := ⟨[], rfl⟩
  have first := (fresh.edit (.setCode Code.content)).edited (.setObserve s.counter) rfl observed
  have second := first.edited (.setToken token) rfl tokened
  have third : aged.Reached := by
    rcases stated with rfl | stated
    · exact second
    · exact second.edited (.setMaxAge s.maxAge) rfl stated
  exact third.edited (.setPayload payload) rfl filled

namespace Sending

variable {x : Sending} {r : Radio} {m : Received} {p q : Message}

/-- A packet to be sent is one that a caller can hold. -/
def Made : Sending → Prop
  | own _ _ p | respond p => p.Reached
  | reply _ _ | acknowledge => True

def Canonical : Sending → Prop
  | own _ _ p | respond p => p.Canonical
  | reply _ _ | acknowledge => True

theorem Made.canonical (made : x.Made) : x.Canonical := by
  cases x with
  | own _ _ p | respond p => exact Packet.Reached.canonical made
  | reply | acknowledge => trivial

theorem response_canonical (h : p.Canonical) (built : response r m p = .ok q) : q.Canonical := by
  unfold response at built
  cases marked : p.setToken m.packet.token with
  | error e =>
    rw [marked] at built
    cases built
  | ok p' =>
    rw [marked] at built
    cases built
    obtain ⟨kind, id, content⟩ := r.addressResponse_content m p'
    change Packet.Canonical (r.addressResponse m p').2
    rw [content]
    exact (h.setToken marked).of_same_content rfl rfl rfl rfl

theorem Canonical.message (canonical : x.Canonical) (built : x.message r m = .ok p) :
    p.Canonical := by
  cases x with
  | own peer mode q =>
    replace canonical : q.Canonical := canonical
    cases mode with
    | asIs =>
      cases built
      exact canonical
    | freshId =>
      cases built
      exact canonical.of_same_content rfl rfl rfl rfl
    | request =>
      cases marked : q.setToken r.drawToken.2 with
      | error e =>
        simp only [Sending.message, marked, Except.map] at built
        cases built
      | ok q' =>
        simp only [Sending.message, marked, Except.map] at built
        cases built
        exact (canonical.setToken marked).of_same_content rfl rfl rfl rfl
  | respond q => exact response_canonical canonical built
  | reply code payload =>
    have blank : ({ Packet.fresh 128 with code } : Message).Canonical :=
      (Packet.fresh_canonical 128).of_same_content rfl rfl rfl rfl
    cases filled : ({ Packet.fresh 128 with code } : Message).setPayload payload with
    | error e =>
      simp only [Sending.message, filled, Except.bind] at built
      cases built
    | ok q =>
      simp only [Sending.message, filled, Except.bind] at built
      exact response_canonical (blank.setPayload filled) built
  | acknowledge =>
    cases built
    exact (Packet.fresh_canonical 128).of_same_content rfl rfl rfl rfl

theorem unbuilt_of_codec (canonical : x.Canonical) {e : RuntimeError} {c : CodecError}
    (failed : (x.run r m).2.2 = .error e) (codec : e.codec? = some c) :
    x.message r m = .error c := by
  rcases x.run_cases r m with ⟨s, e', refused, run, fails, -⟩ | ⟨s, m', p, run, -⟩
  · rw [run] at failed
    cases failed
    rw [RuntimeError.codec?_eq_some] at codec
    rw [codec] at fails
    cases fails with
    | unbuilt unbuilt => exact unbuilt
    | hindered built hindered =>
      cases hindered with
      | long _ long => exact absurd long (Nat.not_lt_of_le (canonical.message built).sendable)
  · rw [run] at failed
    cases failed

theorem run_written (canonical : x.Canonical) (built : x.message r m = .ok p) :
    Written (x.run r m).2.2 := by
  intro e failed
  cases codec : e.codec? with
  | none => rfl
  | some c =>
    rw [unbuilt_of_codec canonical failed codec] at built
    cases built

end Sending

/-- A status that cannot be rendered keeps its notification from being built; any other is
written. -/
theorem Observable.sendNotification_written (s : Observable) (r : Radio) (o : Observer) :
    Written (s.sendNotification r o).2 := by
  unfold sendNotification
  cases built : s.notification o.token with
  | error e =>
    obtain ⟨-, rfl⟩ := notification_eq_error_iff.mp built
    rintro e ⟨⟩
    rfl
  | ok packet =>
    simp only
    generalize kind : (if o.confirmable s.confirmable then MessageKind.confirmable
      else .nonConfirmable) = k
    have made : (Sending.own o.peer .freshId { packet with kind := k }).Made :=
      (notification_reached built).edit (.setKind k)
    have written := Sending.run_written (r := r) (m := .fresh packet o.peer) made.canonical rfl
    simp only [Sending.run, Radio.dispatch] at written
    generalize r.sendFresh o.peer { packet with kind := k } = done at written ⊢
    obtain ⟨s, e | id⟩ := done
    · exact Written.error written
    · exact .ok id

/-! ## Messages that are kept -/

namespace Radio

variable {r s : Radio} {m m' : Received} {peer : NodeId} {packet : Message}

/-- Whatever may have to be sent again fits a datagram. -/
def Repeatable (r : Radio) : Prop :=
  ∀ e ∈ r.unacknowledged, e.packet.serializedLength ≤ datagramBuffer

def Retains (r s : Radio) : Prop := r.Repeatable → s.Repeatable

theorem retains_of_subset (fewer : s.unacknowledged ⊆ r.unacknowledged) : r.Retains s :=
  fun repeatable e member => repeatable e (fewer member)

theorem retains_of_same (same : s.unacknowledged = r.unacknowledged) : r.Retains s :=
  retains_of_subset (by rw [same]; exact List.Subset.refl _)

theorem retains_light : Light Retains where
  refl := fun _ repeatable => repeatable
  trans := fun first second repeatable => second (first repeatable)
  note := fun _ _ _ => retains_of_same rfl
  transmit := by
    intro r peer packet activity
    rcases r.transmit_cases peer packet activity with ⟨-, same, -⟩ | ⟨_, offers, -⟩
    · exact retains_of_same (by rw [same])
    · exact retains_of_same offers.unacknowledged
  drawId := fun _ => retains_of_same rfl

theorem track_retains (r : Radio) (peer : NodeId)
    (fits : packet.serializedLength ≤ datagramBuffer) : r.Retains (r.track peer packet) := by
  unfold track
  split
  · exact retains_of_same rfl
  · intro repeatable e member
    rcases List.mem_append.mp member with old | new
    · exact repeatable e old
    · rw [List.mem_singleton.mp new]
      exact fits

theorem run_retains (x : Sending) (r : Radio) (m : Received) : r.Retains (x.run r m).1 := by
  rcases x.run_cases r m with ⟨s, e, refused, run, -, unsent⟩ | ⟨s, m', p, run, works, built, ships⟩
  · rw [run]
    obtain ⟨_, _, _, _, rfl, -⟩ := unsent
    exact retains_of_same rfl
  · rw [run]
    have room : r.HasRoom p := by
      by_contra full
      exact works _ _ (.hindered built (.full full))
    have fits : p.serializedLength ≤ datagramBuffer := by
      by_contra long
      exact works _ _ (.hindered built (.long room (Nat.lt_of_not_le long)))
    obtain ⟨_, t, remembered, ⟨_, _, rfl, -⟩, offered, rfl⟩ := ships
    have same : r.Retains t := by
      obtain ⟨_, _, rfl⟩ := offered
      exact retains_of_same rfl
    split
    · exact retains_light.trans same (t.track_retains (x.peer m) fits)
    · exact same

theorem Conduct.retains {deeds : List Deed} (h : Conduct r m deeds s m') : r.Retains s := by
  induction h with
  | idle still => exact retains_of_same still.unacknowledged
  | respond r m response => exact run_retains (.respond response) r m
  | acknowledge r m => exact run_retains .acknowledge r m
  | mark r | markAnswered r | unmark r | rewrite r => exact retains_light.refl r
  | send r m peer mode packet => exact run_retains (.own peer mode packet) r m
  | schedule => exact retains_of_same rfl
  | trans _ _ one two => exact retains_light.trans one two

theorem Sends.retains (h : Sends r s) : r.Retains s := by
  induction h with
  | idle still => exact retains_of_same still.unacknowledged
  | fresh r peer packet => exact run_retains (.own peer .freshId packet) r (.fresh packet peer)
  | trans _ _ one two => exact retains_light.trans one two

end Radio

namespace Node

theorem without_retains (r : Radio) (i : Nat) : r.Retains (r.without i) :=
  Radio.retains_of_subset fun _ member => List.mem_of_mem_eraseIdx member

theorem takeUnacknowledged_retains (r : Radio) (peer : NodeId) (id : MessageId) :
    r.Retains (r.takeUnacknowledged peer id).1 := by
  rcases takeUnacknowledged_cases r peer id with ⟨taken, -⟩ | ⟨i, e, -, -, -, taken⟩
  · rw [taken]
    exact Radio.retains_light.refl r
  · rw [taken]
    exact without_retains r i

theorem receiveReply_retains (n : Node) (peer : NodeId) (packet : Message)
    (services : List Service) :
    n.radio.Retains (n.receiveReply peer packet services).1.radio := by
  have taken := takeUnacknowledged_retains n.radio peer packet.id
  unfold receiveReply
  generalize n.radio.takeUnacknowledged peer packet.id = found at taken ⊢
  obtain ⟨radio, sent⟩ := found
  simp only
  split
  · next e _ =>
    have told := (note_tends ⟨radio, n.journal, n.stash⟩ .debug
      (packet.id.inspect ++ " was reset by " ++ toString peer)).trans
      (Service.forEach_tends (fun s n => s.peerReset_tends n peer e.packet.token) services _)
    exact Radio.retains_light.trans taken told.sends.retains
  · exact Radio.retains_light.trans taken
      (askUnmatched_tends ⟨radio, n.journal, n.stash⟩ peer packet.id services).sends.retains
  · split <;> exact taken
  · exact taken

theorem receiveNew_retains (n : Node) (peer : NodeId) (packet : Message)
    (services : List Service) :
    n.radio.Retains (n.receiveNew peer packet services).1.radio := by
  simp only [receiveNew]
  split
  · exact Radio.retains_light.receivePing n peer packet
  split
  · obtain ⟨_, _, conduct, -⟩ := n.receiveRequest_conduct (Received.fresh packet peer) services
    exact conduct.retains
  split
  · exact Radio.retains_light.receiveResponse n _
  · exact Radio.retains_light.refl _

theorem receiveOriginal_retains (n : Node) (peer : NodeId) (packet : Message)
    (services : List Service) :
    n.radio.Retains (n.receiveOriginal peer packet services).1.radio := by
  unfold receiveOriginal
  split
  · exact Radio.retains_light.receiveDuplicate n.radio peer packet _
  · exact receiveNew_retains { n with radio := n.radio.remember peer packet.id } peer packet
      services

theorem receive_retains (n : Node) (peer : NodeId) (bytes : List UInt8) (services : List Service) :
    n.radio.Retains (n.receive peer bytes services).1.radio := by
  by_cases own : peer = n.radio.self
  · rw [receive, if_pos own]
    exact Radio.retains_of_same rfl
  cases read : Packet.decode 128 bytes with
  | error refusal =>
    simp only [receive, if_neg own, read]
    exact Radio.retains_light.reject n.radio peer refusal
  | ok packet =>
    obtain ⟨replied, original⟩ := n.receive_of_decode services own read
    by_cases kind : packet.kind.original = true
    · rw [original (packet.kind.original_eq_true.mp kind)]
      exact receiveOriginal_retains (n.heard peer packet) peer packet services
    · rw [replied (packet.kind.original_eq_false.mp (by simpa using kind))]
      exact receiveReply_retains (n.heard peer packet) peer packet services

theorem Repeats.retains {n n' : Node} {i : Nat} {e : Unacknowledged} (repeats : n.Repeats n' i e)
    (found : n.radio.unacknowledged[i]? = some e) : n.radio.Retains n'.radio := by
  intro repeatable x member
  rw [repeats.unacknowledged] at member
  rcases List.mem_or_eq_of_mem_set member with old | rfl
  · exact repeatable x old
  · exact repeatable e (List.mem_of_getElem? found)

theorem retransmit_retains (n : Node) (id : MessageId) (services : List Service) :
    n.radio.Retains (n.retransmit id services).1.radio := by
  rcases n.retransmit_cases id services with ⟨-, same⟩ | ⟨i, e, found, -, ⟨-, repeats⟩ | ⟨-, ends⟩⟩
  · rw [same]
    exact Radio.retains_light.refl _
  · exact repeats.retains found
  · exact Radio.retains_light.trans (without_retains n.radio i)
      (Radio.retains_of_same ends.radio.unacknowledged)

end Node

theorem Operation.apply_retains (op : Operation) (n : Node) :
    n.radio.Retains (op.apply n).radio := by
  cases op with
  | receive peer bytes services => exact n.receive_retains peer bytes services
  | fire event services =>
    cases event with
    | maxAge id =>
      have told := Service.forEach_tends (fun s n => s.timerFires_tends n id) services n
      exact told.sends.retains
    | retransmit id => exact n.retransmit_retains id services
  | perform action m => exact (action.perform_conduct n m false false).retains
  | call service c => exact (service.call_sends n.radio c).retains
  | create spec => exact Radio.retains_of_same (Service.create_idle n.radio spec).unacknowledged
  | schedule | setOutcomes | setClock => exact Radio.retains_of_same rfl
  | drawIds times => exact Radio.retains_of_same (n.radio.drawIds_idle _ times).unacknowledged
  | drawTokens times =>
    exact Radio.retains_of_same (n.radio.drawTokens_idle _ times).unacknowledged

theorem Run.repeatable_after {s : Run} (repeatable : s.node.radio.Repeatable)
    (ops : List Operation) : (s.after ops).node.radio.Repeatable := by
  induction ops generalizing s with
  | nil => exact repeatable
  | cons op rest ih => exact ih (s := s.step op) (op.apply_retains s.node repeatable)

/-! ## What an event and a datagram come to -/

namespace Node

variable {n : Node}

theorem fire_written (repeatable : n.radio.Repeatable) (event : TimerEvent)
    (services : List Service) : Written (n.fire event services).2.2 := by
  cases event with
  | maxAge id => exact .ok ()
  | retransmit id =>
    simp only [fire, retransmit]
    split
    · exact .ok ()
    next e found =>
    split
    · exact Radio.transmit_written _ e.peer _ (repeatable e (List.mem_of_getElem? found))
    · exact .ok ()

theorem answerUntaken_written (n : Node) (request : Message) (m : Received) (taken : Bool) :
    Written (n.answerUntaken request m taken).2.2 := by
  unfold answerUntaken
  split
  · exact .ok ()
  · have short : ([] : List UInt8).length ≤ payloadBuffer := Nat.zero_le _
    obtain ⟨p, built, -⟩ := Sending.reply_message
      (n.radio.note .debug ("no resource for " ++ request.summary)) m Code.notFound short
    have canonical : (Sending.reply Code.notFound []).Canonical := trivial
    exact Sending.run_written canonical built

theorem acknowledge_written (r : Radio) (m : Received) : Written (r.acknowledge m).2.2 := by
  obtain ⟨-, done⟩ | ⟨code, -, done⟩ := acknowledge_outcome r m
  · rw [done]
    exact .ok ()
  · rw [done]
    rintro e ⟨⟩
    rfl

theorem finishRequest_written (n : Node) (request : Message) (m : Received) :
    Written (n.finishRequest request m).2 := by
  have acknowledged := acknowledge_written n.radio m
  unfold finishRequest
  split
  · split
    · exact .ok _
    · next failed =>
      rw [failed] at acknowledged
      exact acknowledged.error
  · exact .ok _

theorem receiveRequest_written (n : Node) (m : Received) (services : List Service) :
    Written (n.receiveRequest m services).2.2 := by
  have answered := answerUntaken_written (n.offerRequest m services).1 m.packet
    (n.offerRequest m services).2.1 (n.offerRequest m services).2.2.2
  simp only [receiveRequest]
  split
  · next failed =>
    rw [failed] at answered
    exact answered.error
  · exact finishRequest_written _ _ _

theorem receivePing_written (n : Node) (peer : NodeId) (packet : Message) :
    Written (n.receivePing peer packet).2 := by
  have reset := n.radio.transmit_written peer .receiving
    (Radio.emptyMessage_fits .reset packet.id)
  unfold receivePing
  split
  · split
    · exact .ok _
    · next failed =>
      rw [failed] at reset
      exact reset.error
  · exact .ok _

theorem receiveResponse_written (n : Node) (m : Received) : Written (n.receiveResponse m).2 := by
  have acknowledged := acknowledge_written n.radio m
  unfold receiveResponse
  split
  · split
    · exact .ok _
    · next failed =>
      rw [failed] at acknowledged
      exact acknowledged.error
  · exact .ok _

theorem receiveNew_written (n : Node) (peer : NodeId) (packet : Message)
    (services : List Service) : Written (n.receiveNew peer packet services).2.2 := by
  simp only [receiveNew]
  split
  · exact receivePing_written n peer packet
  split
  · exact receiveRequest_written n _ services
  split
  · exact receiveResponse_written n _
  · exact .ok _

/-- Of all that a datagram is answered with only the response to a duplicate was made before. -/
theorem receive_written (mindful : n.radio.Mindful) (peer : NodeId) (bytes : List UInt8)
    (services : List Service) : Written (n.receive peer bytes services).2.2 := by
  cases read : Packet.decode 128 bytes with
  | error refusal =>
    cases n.dismisses_refused peer read with
    | dropped log settles _ =>
      rw [settles services]
      exact .ok _
    | answered settles _ _ _ _ _ =>
      rw [settles services]
      exact written_of_refusal _ _ _
  | ok packet =>
  by_cases own : peer = n.radio.self
  · rw [receive, if_pos own]
    exact .ok _
  by_cases kind : packet.kind.original = true
  case neg =>
    simp only [receive, if_neg own, read]
    split
    · exact .ok _
    · exact .ok _
    · next confirmable => exact absurd (by rw [confirmable]; rfl) kind
    · next other => exact absurd (by rw [other]; rfl) kind
  by_cases known : (peer, packet.id) ∈ n.radio.recent
  · obtain ⟨radio, offered, result, suppresses⟩ := suppresses_known mindful own read kind known
    rw [suppresses.settles services]
    rcases suppresses.result with done | ⟨code, -, failed⟩
    · rw [done]
      exact .ok _
    · rw [failed]
      rintro e ⟨⟩
      rfl
  · rw [receive_new n services own read kind known]
    exact receiveNew_written _ peer packet services

end Node

/-- A packet is written whole into the front of any buffer that has room for it, and otherwise not
at all; it never takes more than its arena, a header and a marker. So no message that was built
fails to be written, whichever way it is sent, notifications included; and whatever a node did
before, neither an event nor a datagram leads to one that does. -/
theorem datagrams_fit :
    (∀ (capacity : Nat) (edits : List PacketEdit) (buffer : List UInt8),
      let p := Packet.reach capacity edits
      p.serializedLength ≤ headerLength + capacity + 1 ∧
        ∃ after result, p.copyInto buffer = some (after, result) ∧ p.Writes buffer after result) ∧
    (∀ edits, (Packet.reach 128 edits).serializedLength ≤ datagramBuffer) ∧
    (∀ x : Sending, x.Made → ∀ r m e c, (x.run r m).2.2 = .error e → e.codec? = some c →
      x.message r m = .error c) ∧
    (∀ (s : Observable) token packet, s.notification token = .ok packet → packet.Reached) ∧
    (∀ (s : Observable) r o, Written (s.sendNotification r o).2) ∧
    ∀ self config clock ops,
      let n := ((Run.start self config clock).after ops).node
      (∀ event services, Written (n.fire event services).2.2) ∧
        ∀ peer bytes services, Written (n.receive peer bytes services).2.2 := by
  refine ⟨fun capacity edits buffer => ?_, fun edits => ?_, fun x made r m e c failed codec => ?_,
    fun _ _ _ => Observable.notification_reached, Observable.sendNotification_written,
    fun self config clock ops => ?_⟩
  · have h := Packet.reach_canonical capacity edits
    exact ⟨h.serializedLength_le, Packet.copyInto_writes _ buffer⟩
  · exact (Packet.reach_canonical 128 edits).sendable
  · exact Sending.unbuilt_of_codec made.canonical failed codec
  · have fresh : (Run.start self config clock).node.radio.Repeatable := by
      intro e member
      cases member
    have mindful : (Run.start self config clock).node.radio.Mindful :=
      Radio.start_mindful self config clock
    exact ⟨Node.fire_written (Run.repeatable_after fresh ops),
      Node.receive_written (Run.mindful_after mindful ops)⟩

set_option maxRecDepth 10000 in
/-- A message that fills its arena and needs the marker takes all of a datagram. It is sent, kept
and sent again. -/
theorem datagrams_fit_full :
    let edits := List.replicate 15 (.addOption .proxyUri (.text "p")) ++
      [.setPayload (List.replicate 98 0)]
    let p : Message := Packet.reach 128 edits
    let x : Sending := .own 2 .freshId p
    let m : Received := .fresh p 2
    let s := (Run.start 0 {} { ticks := 5000 }).after [.perform (.send 2 .freshId p) m]
    p.serializedLength = headerLength + 128 + 1 ∧ p.serializedLength ≤ datagramBuffer ∧
      (∃ after result, p.copyInto (List.replicate 140 7) = some (after, result) ∧
        p.Writes (List.replicate 140 7) after result) ∧
      x.Made ∧ (∀ e c, (x.run s.node.radio m).2.2 = .error e → e.codec? = some c →
        x.message s.node.radio m = .error c) ∧
      s.history.map (·.packet.serializedLength) = [datagramBuffer] ∧
      ∀ e ∈ s.history, Written (s.node.fire (.retransmit e.packet.id) []).2.2 := by
  intro edits p x m s
  obtain ⟨whole, fits, sends, -, -, runs⟩ := datagrams_fit
  have made : x.Made := ⟨edits, rfl⟩
  have written := (runs 0 {} { ticks := 5000 } [.perform (.send 2 .freshId p) m]).1
  exact ⟨by decide +kernel, fits edits, (whole 128 edits _).2, made,
    sends x made s.node.radio m, by decide +kernel, fun e _ => written _ []⟩

end CoapNode
