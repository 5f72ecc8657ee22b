import CoapNode.Proofs.Radio.Growth
/-! What goes to the network and what is remembered. Whoever is lent a received message can
answer it, acknowledge it, count it as acknowledged, or send messages of its own; a conduct is
any sequence of these. -/
namespace CoapNode

/-! ## Datagrams on the wire -/

structure Head where
  kind : MessageKind
  id : MessageId
  deriving DecidableEq, Repr

namespace Delivery

def head? (d : Delivery) : Option Head :=
  match d.bytes with
  | first :: _ :: high :: low :: _ =>
    match MessageKind.ofNumber? ((first >>> 4) &&& 3) with
    | .ok kind => some ⟨kind, MessageId.ofBytes high low⟩
    | .error _ => none
  | _ => none

def isKind (d : Delivery) (kind : MessageKind) : Bool := d.head?.any (·.kind == kind)

def acknowledges (d : Delivery) (peer : NodeId) (id : MessageId) : Bool :=
  d.peer == peer && d.head?.any fun h => h.kind == .acknowledgement && h.id == id

/-- Whether an acknowledgement of the message with this id carries a response. -/
def carriesResponse (d : Delivery) (id : MessageId) : Bool :=
  d.bytes != (emptyMessage .acknowledgement id).datagram

end Delivery

theorem firstByte_kind (version : UInt8) (kind : MessageKind) (count : Nat) (fits : count ≤ 15) :
    MessageKind.ofNumber?
      ((((version <<< 6) ||| (kind.number <<< 4) ||| UInt8.ofNat count) >>> 4) &&& 3) =
        .ok kind := by
  have high : ∃ v : Fin 4, version <<< 6 = UInt8.ofNat v.val <<< 6 := by
    have table : ∀ n : Fin 256, ∃ v : Fin 4, UInt8.ofNat n.val <<< 6 = UInt8.ofNat v.val <<< 6 := by
      decide +kernel
    simpa using table ⟨version.toNat, version.toNat_lt⟩
  have table : ∀ v : Fin 4, ∀ c : Fin 16, ∀ k ∈ [MessageKind.confirmable, .nonConfirmable,
      .acknowledgement, .reset], MessageKind.ofNumber?
        ((((UInt8.ofNat v.val <<< 6) ||| (k.number <<< 4) ||| UInt8.ofNat c.val) >>> 4) &&& 3) =
          .ok k := by decide +kernel
  obtain ⟨v, same⟩ := high
  rw [same]
  exact table v ⟨count, by omega⟩ kind (by cases kind <;> decide)

theorem head?_datagram (peer : NodeId) (p : Message) :
    (Delivery.mk peer p.datagram).head? = some ⟨p.kind, p.id⟩ := by
  have kind := firstByte_kind p.version p.kind (min p.optionCount unstatedCount)
    (Nat.min_le_right _ _)
  rw [← Packet.statedCount_eq] at kind
  simp only [Delivery.head?, Packet.datagram, MessageId.toBytes, List.cons_append,
    List.nil_append, kind, messageId_ofBytes]

/-! ## Offering a datagram -/

/-- What gets through of a datagram that was offered. -/
def Transmission.delivered (t : Transmission) : List Delivery :=
  if t.refusal.isNone then [⟨t.peer, t.bytes⟩] else []

namespace Radio

def refusal (r : Radio) : Option Nat := (Network.settle r.network.outcomes).1

/-- The second radio is the first after these datagrams were offered, of which the network knows
and the log; nothing else has changed. -/
def Offered (r s : Radio) (offered : List Transmission) : Prop :=
  ∃ log outcomes, s = { r with
    log
    network := ⟨outcomes, r.network.delivered ++ offered.flatMap (·.delivered)⟩
    transmissions := r.transmissions ++ offered }

theorem note_offered (r : Radio) (severity : Severity) (text : String) :
    r.Offered (r.note severity text) [] :=
  ⟨(r.note severity text).log, r.network.outcomes, by simp [note]⟩

theorem Offered.trans {r s t : Radio} {offered offered' : List Transmission}
    (h : r.Offered s offered) (h' : s.Offered t offered') : r.Offered t (offered ++ offered') := by
  obtain ⟨_, _, rfl⟩ := h
  obtain ⟨log, outcomes, rfl⟩ := h'
  exact ⟨log, outcomes, by simp [List.append_assoc]⟩

theorem transmit_of_long {r : Radio} {packet : Message} (peer : NodeId) (activity : Activity)
    (long : datagramBuffer < packet.serializedLength) :
    r.transmit peer packet activity = (r, .error ⟨.codec .noRoom, activity⟩) := by
  have unfit : ¬ packet.serializedLength ≤ (List.replicate datagramBuffer (0 : UInt8)).length := by
    simpa using long
  rw [transmit, Packet.serialize, if_neg unfit]

theorem transmit_of_fits (r : Radio) {packet : Message} (peer : NodeId) (activity : Activity)
    (fits : packet.serializedLength ≤ datagramBuffer) :
    ∃ s, r.transmit peer packet activity = (s, match r.refusal with
        | none => .ok ()
        | some code => .error ⟨.transport code, activity⟩) ∧
      r.Offered s [⟨peer, packet, packet.datagram, activity, r.refusal⟩] := by
  have room : packet.serializedLength ≤ (List.replicate datagramBuffer (0 : UInt8)).length := by
    simpa using fits
  rw [transmit, Packet.serialize, if_pos room, ← packet.datagram_length]
  simp only [List.take_left, Network.send, refusal, note]
  generalize Network.settle r.network.outcomes = settled
  obtain ⟨_ | code, outcomes⟩ := settled
  · exact ⟨_, rfl, _, outcomes, rfl⟩
  · exact ⟨_, rfl, r.log ++ [⟨.trace, "-> " ++ toString peer ++ " " ++ packet.summary⟩], outcomes,
      by simp [recordTransmission, Transmission.delivered]⟩

/-! ## Sending -/

/-- A quiet change that does not concern the network or the messages received lately either. -/
structure Idle (r s : Radio) : Prop extends r.Quiet s where
  network : s.network = r.network
  remembered : s.remembered = r.remembered

variable {r s t : Radio} {peer : NodeId} {packet : Message} {taken : Bool}

theorem Idle.refl (r : Radio) : r.Idle r := ⟨Quiet.refl r, rfl, rfl⟩

theorem Idle.trans (h : r.Idle s) (h' : s.Idle t) : r.Idle t :=
  ⟨h.toQuiet.trans h'.toQuiet, h'.network.trans h.network, h'.remembered.trans h.remembered⟩

theorem note_idle (r : Radio) (severity : Severity) (text : String) :
    r.Idle (r.note severity text) := ⟨r.note_quiet severity text, rfl, rfl⟩

theorem schedule_idle (r : Radio) (after : Nat) (id : RegistrationId) :
    r.Idle (r.schedule after (.maxAge id)) := ⟨r.schedule_quiet after id, rfl, rfl⟩

theorem drawId_idle (r : Radio) : r.Idle r.drawId.1 := ⟨r.drawId_quiet, rfl, rfl⟩

theorem drawToken_idle (r : Radio) : r.Idle r.drawToken.1 := ⟨r.drawToken_quiet, rfl, rfl⟩

theorem register_idle (r : Radio) (path : String) : r.Idle (r.register path).1 := by
  refine ⟨r.register_quiet path, ?_, ?_⟩ <;> unfold register <;> split
  any_goals rfl
  all_goals split <;> rfl

theorem unregister_idle (r : Radio) (id : RegistrationId) : r.Idle (r.unregister id).1 :=
  ⟨r.unregister_quiet id, rfl, rfl⟩

/-- One message got through, or none did; the network has seen no other, and the messages
received lately are the same. -/
structure Passes (r s : Radio) (peer : NodeId) (packet : Message) (taken : Bool) : Prop where
  self : s.self = r.self
  remembered : s.remembered = r.remembered
  transmissions : ∃ offered, s.transmissions = r.transmissions ++ offered ∧
    ∀ t ∈ offered, t.peer = peer ∧ t.packet = packet
  delivered : s.network.delivered = r.network.delivered ++
    if taken then [⟨peer, packet.datagram⟩] else []
  fits : taken = true → packet.serializedLength ≤ datagramBuffer

theorem Idle.passes (h : r.Idle s) (peer : NodeId) (packet : Message) :
    r.Passes s peer packet false where
  self := h.self
  remembered := h.remembered
  transmissions := ⟨[], by rw [h.transmissions, List.append_nil], by simp⟩
  delivered := by rw [h.network]; exact (List.append_nil _).symm
  fits := by simp

theorem Passes.after_idle (h : r.Idle s) (h' : s.Passes t peer packet taken) :
    r.Passes t peer packet taken where
  self := h'.self.trans h.self
  remembered := h'.remembered.trans h.remembered
  transmissions := by rw [← h.transmissions]; exact h'.transmissions
  delivered := by rw [h'.delivered, h.network]
  fits := h'.fits

theorem transmit_passes (r : Radio) (peer : NodeId) (packet : Message) (activity : Activity) :
    r.Passes (r.transmit peer packet activity).1 peer packet
      (r.transmit peer packet activity).2.toBool := by
  by_cases fits : packet.serializedLength ≤ datagramBuffer
  · obtain ⟨s, whole, _, _, rfl⟩ := r.transmit_of_fits peer activity fits
    rw [whole]
    refine ⟨rfl, rfl, ⟨_, rfl, by simp⟩, ?_, fun _ => fits⟩
    cases r.refusal <;> rfl
  · rw [transmit_of_long peer activity (Nat.lt_of_not_le fits)]
    exact (Idle.refl r).passes peer packet

theorem track_frame (r : Radio) (peer : NodeId) (packet : Message) :
    (r.track peer packet).self = r.self ∧ (r.track peer packet).remembered = r.remembered ∧
      (r.track peer packet).transmissions = r.transmissions ∧
      (r.track peer packet).network = r.network := by
  unfold track
  split <;> exact ⟨rfl, rfl, rfl, rfl⟩

theorem Passes.track (h : r.Passes s peer packet taken) :
    r.Passes (s.track peer packet) peer packet taken := by
  obtain ⟨self, remembered, transmissions, network⟩ := s.track_frame peer packet
  exact ⟨self.trans h.self, remembered.trans h.remembered,
    by rw [transmissions]; exact h.transmissions, by rw [network]; exact h.delivered, h.fits⟩

theorem send_passes (r : Radio) (peer : NodeId) (packet : Message) :
    r.Passes (r.send peer packet).1 peer packet (r.send peer packet).2.toBool := by
  unfold send
  simp only
  split
  · exact (r.note_idle _ _).passes peer packet
  have passes := r.transmit_passes peer packet (.sending packet.id)
  split
  · next failed => rw [failed] at passes; exact passes
  · next done =>
    rw [done] at passes
    split
    · exact passes.track
    · exact passes

theorem sendFresh_passes (r : Radio) (peer : NodeId) (packet : Message) :
    ∃ sent, r.Passes (r.sendFresh peer packet).1 peer sent (r.sendFresh peer packet).2.toBool := by
  have passes := Passes.after_idle r.drawId_idle
    (r.drawId.1.send_passes peer { packet with id := r.drawId.2 })
  refine ⟨{ packet with id := r.drawId.2 }, ?_⟩
  unfold sendFresh
  simp only
  split
  · next done => rw [done] at passes; exact passes
  · next failed => rw [failed] at passes; exact passes

theorem sendRequest_passes (r : Radio) (peer : NodeId) (packet : Message) :
    ∃ sent, r.Passes (r.sendRequest peer packet).1 peer sent
      (r.sendRequest peer packet).2.toBool := by
  unfold sendRequest
  simp only
  split
  · exact ⟨packet, r.drawToken_idle.passes peer packet⟩
  · next packet' _ =>
    obtain ⟨sent, passes⟩ := r.drawToken.1.sendFresh_passes peer packet'
    refine ⟨sent, Passes.after_idle r.drawToken_idle ?_⟩
    split
    · next done => rw [done] at passes; exact passes
    · next failed => rw [failed] at passes; exact passes

theorem dispatch_passes (r : Radio) (peer : NodeId) (mode : SendMode) (packet : Message) :
    ∃ sent, r.Passes (r.dispatch peer mode packet).1 peer sent
      (r.dispatch peer mode packet).2.toBool := by
  have same : ∀ {α β : Type} (x : Except RuntimeError α) (f : α → β),
      (x.map f).toBool = x.toBool := by
    intro _ _ x f
    cases x <;> rfl
  cases mode with
  | asIs => exact ⟨packet, by simpa [dispatch, same] using r.send_passes peer packet⟩
  | freshId => simpa [dispatch, same] using r.sendFresh_passes peer packet
  | request => simpa [dispatch, same] using r.sendRequest_passes peer packet

end Radio

/-! ## Answering -/

namespace Received

/-- How a response to the message travels. -/
def answerKind (m : Received) : MessageKind :=
  match m.packet.kind, m.acknowledged with
  | .confirmable, false => .acknowledgement
  | .nonConfirmable, _ => .nonConfirmable
  | _, _ => .confirmable

/-- A response that rides on the acknowledgement has the message's id. -/
structure Addresses (m : Received) (response : Message) : Prop where
  kind : response.kind = m.answerKind
  id : response.kind = .acknowledgement → response.id = m.packet.id

end Received

namespace Radio

variable {r s t : Radio} {m m' : Received}

theorem addressResponse_addresses (r : Radio) (m : Received) (response : Message) :
    r.Idle (r.addressResponse m response).1 ∧ m.Addresses (r.addressResponse m response).2 := by
  have own : ∀ {kind : MessageKind}, m.answerKind = kind → kind ≠ .acknowledgement →
      m.Addresses { response with kind, id := r.drawId.2 } :=
    fun same other => ⟨same.symm, fun rides => absurd rides other⟩
  cases kind : m.packet.kind with
  | confirmable =>
    cases acknowledged : m.acknowledged with
    | false =>
      simp only [addressResponse, kind, acknowledged]
      exact ⟨Idle.refl r, by simp [Received.answerKind, kind, acknowledged], fun _ => rfl⟩
    | true =>
      simp only [addressResponse, kind, acknowledged]
      exact ⟨r.drawId_idle, own (by simp [Received.answerKind, kind, acknowledged]) (by simp)⟩
  | nonConfirmable =>
    simp only [addressResponse, kind]
    exact ⟨r.drawId_idle, own (by simp [Received.answerKind, kind]) (by simp)⟩
  | acknowledgement | reset =>
    simp only [addressResponse, kind]
    exact ⟨r.drawId_idle, own (by simp [Received.answerKind, kind]) (by simp)⟩

/-- What an attempt to respond comes to: nothing, or a response that is stored and noted. -/
inductive Responds (r : Radio) (m : Received) : Radio → Received → Prop
  | failed {s : Radio} {response : Message} (passes : r.Passes s m.peer response false)
      (addressed : m.Addresses response) : Responds r m s m
  | sent {s : Radio} {response : Message} (passes : r.Passes s m.peer response true)
      (addressed : m.Addresses response) :
      Responds r m (s.storeResponse m.peer m.packet.id response)
        { m with
          acknowledged := m.acknowledged || response.kind == .acknowledgement
          answered := true }

theorem storeResponse_frame (r : Radio) (peer : NodeId) (id : MessageId) (response : Message) :
    (r.storeResponse peer id response).network = r.network ∧
      (r.storeResponse peer id response).transmissions = r.transmissions := by
  simp only [storeResponse]
  split <;> exact ⟨rfl, rfl⟩

theorem Responds.message (h : r.Responds m s m') : m'.peer = m.peer ∧ m'.packet = m.packet := by
  cases h <;> exact ⟨rfl, rfl⟩

theorem respond_responds (r : Radio) (m : Received) (response : Message) :
    r.Responds m (r.respond m response).1 (r.respond m response).2.1 := by
  unfold respond
  split
  · have addressed : m.Addresses (emptyMessage m.answerKind m.packet.id) := ⟨rfl, fun _ => rfl⟩
    exact .failed ((Idle.refl r).passes _ _) addressed
  · next response' _ =>
    obtain ⟨idle, addressed⟩ := r.addressResponse_addresses m response'
    have passes := Passes.after_idle idle ((r.addressResponse m response').1.send_passes m.peer
      (r.addressResponse m response').2)
    simp only
    split
    · next failed => rw [failed] at passes; exact .failed passes addressed
    · next done => rw [done] at passes; exact .sent passes addressed

theorem acknowledge_passes (r : Radio) (m : Received) :
    r.Passes (r.acknowledge m).1 m.peer (emptyMessage .acknowledgement m.packet.id)
        (r.acknowledge m).2.2.toBool ∧
      (r.acknowledge m).2.1 =
        { m with acknowledged := m.acknowledged || (r.acknowledge m).2.2.toBool } := by
  have passes := r.transmit_passes m.peer (emptyMessage .acknowledgement m.packet.id)
    (.sending m.packet.id)
  unfold acknowledge
  split
  · next done => rw [done] at passes; exact ⟨passes, by simp [Except.toBool]⟩
  · next failed => rw [failed] at passes; exact ⟨passes, by simp [Except.toBool]⟩

end Radio

/-! ## Conduct -/

inductive Deed where
  | acknowledged
  | marked
  | unmarked
  | rewritten (packet : Message) (peer : NodeId)
  /-- It sent a message of its own, which got through or did not. -/
  | sent (taken : Bool)
  | asked (event : TimerEvent)
  deriving DecidableEq, Repr

def JournalEntry.deed? : JournalEntry → Option Deed
  | .acted .acknowledge _ _ _ => some .acknowledged
  | .acted .markAcknowledged _ _ _ => some .marked
  | .acted .unmark _ _ _ => some .unmarked
  | .acted (.rewrite packet peer) _ _ _ => some (.rewritten packet peer)
  | .acted (.send _ _ _) (.attempted result) _ _ => some (.sent result.toBool)
  | .acted (.schedule _ event) _ _ _ => some (.asked event)
  | _ => none

def Deed.asked? : Deed → Option TimerEvent
  | asked event => some event
  | _ => none

theorem JournalEntry.asked?_eq (e : JournalEntry) : e.asked? = e.deed?.bind (·.asked?) := by
  cases e with
  | acted a result acknowledged answered =>
    cases a with
    | send peer mode packet => cases result <;> rfl
    | _ => rfl
  | _ => rfl

def Node.deedsSince (n' n : Node) : List Deed :=
  (n'.journal.drop n.journal.length).filterMap (·.deed?)

theorem Node.askedSince_eq (n' n : Node) :
    n'.askedSince n = (n'.deedsSince n).filterMap (·.asked?) := by
  simp only [askedSince, deedsSince, List.filterMap_filterMap, JournalEntry.asked?_eq]

def Received.key (m : Received) : NodeId × MessageId := (m.peer, m.packet.id)

def Deed.rekeyed? : Deed → Option (NodeId × MessageId)
  | rewritten packet peer => some (peer, packet.id)
  | _ => none

def Node.rekeyedSince (n' n : Node) : List (NodeId × MessageId) :=
  (n'.deedsSince n).filterMap (·.rekeyed?)

namespace Radio

/-- All that can become of a radio and a message while the message is in the hands of services:
they answer it, or do these deeds. -/
inductive Conduct : Radio → Received → List Deed → Radio → Received → Prop
  | idle {r s : Radio} {m : Received} (still : r.Idle s) : Conduct r m [] s m
  | respond (r : Radio) (m : Received) (response : Message) :
      Conduct r m [] (r.respond m response).1 (r.respond m response).2.1
  | acknowledge (r : Radio) (m : Received) :
      Conduct r m [.acknowledged] (r.acknowledge m).1 (r.acknowledge m).2.1
  | mark (r : Radio) (m : Received) : Conduct r m [.marked] r { m with acknowledged := true }
  | markAnswered (r : Radio) (m : Received) : Conduct r m [] r { m with answered := true }
  | unmark (r : Radio) (m : Received) :
      Conduct r m [.unmarked] r { m with acknowledged := false, answered := false }
  | rewrite (r : Radio) (m : Received) (packet : Message) (peer : NodeId) :
      Conduct r m [.rewritten packet peer] r { m with packet, peer }
  | send (r : Radio) (m : Received) (peer : NodeId) (mode : SendMode) (packet : Message) :
      Conduct r m [.sent (r.dispatch peer mode packet).2.toBool] (r.dispatch peer mode packet).1 m
  | schedule (r : Radio) (m : Received) (after : Nat) (event : TimerEvent) :
      Conduct r m [.asked event] (r.schedule after event) m
  | trans {r s t : Radio} {m m' m'' : Received} {deeds deeds' : List Deed}
      (first : Conduct r m deeds s m') (second : Conduct s m' deeds' t m'') :
      Conduct r m (deeds ++ deeds') t m''

theorem Conduct.refl (r : Radio) (m : Received) : Conduct r m [] r m := .idle (Idle.refl r)

theorem Conduct.reply (r : Radio) (m : Received) (code : Code) (payload : List UInt8) :
    Conduct r m [] (r.reply m code payload).1 (r.reply m code payload).2.1 := by
  unfold Radio.reply
  split
  · exact .refl r m
  · exact .respond r m _

theorem Conduct.message {deeds : List Deed} (h : Conduct r m deeds s m')
    (intact : ∀ packet peer, .rewritten packet peer ∉ deeds) :
    m'.peer = m.peer ∧ m'.packet = m.packet := by
  induction h with
  | idle | mark | markAnswered | unmark | send | schedule => exact ⟨rfl, rfl⟩
  | respond r m response => exact (r.respond_responds m response).message
  | acknowledge r m => rw [(r.acknowledge_passes m).2]; exact ⟨rfl, rfl⟩
  | rewrite r m packet peer => exact absurd (List.mem_singleton_self _) (intact packet peer)
  | trans _ _ one two =>
    have one := one fun packet peer member => intact packet peer (List.mem_append_left _ member)
    have two := two fun packet peer member => intact packet peer (List.mem_append_right _ member)
    exact ⟨two.1.trans one.1, two.2.trans one.2⟩

theorem Conduct.key {deeds : List Deed} (h : Conduct r m deeds s m') :
    m'.key = m.key ∨ m'.key ∈ deeds.filterMap (·.rekeyed?) := by
  induction h with
  | idle | mark | markAnswered | unmark | send | schedule => exact .inl rfl
  | respond r m response =>
    obtain ⟨peer, packet⟩ := (r.respond_responds m response).message
    exact .inl (by rw [Received.key, peer, packet]; rfl)
  | acknowledge r m => exact .inl (by rw [(r.acknowledge_passes m).2]; rfl)
  | rewrite r m packet peer => exact .inr (List.mem_singleton_self _)
  | trans _ _ one two =>
    rw [List.filterMap_append, List.mem_append]
    rcases two with same | new
    · exact (same ▸ one).imp_right .inl
    · exact .inr (.inr new)

theorem Conduct.grows {deeds : List Deed} (h : Conduct r m deeds s m')
    (unasked : (deeds.filterMap (·.asked?)).filterMap (·.retransmits?) = []) : r.Grows s := by
  induction h with
  | idle still => exact still.toQuiet.grows
  | respond r m response => exact r.respond_grows m response
  | acknowledge r m => exact r.acknowledge_grows m
  | mark r | markAnswered r | unmark r | rewrite r => exact Grows.refl r
  | send r m peer mode packet => exact r.dispatch_grows peer mode packet
  | schedule r m after event =>
    cases event with
    | retransmit id => cases unasked
    | maxAge id => exact (r.schedule_quiet after id).grows
  | trans _ _ one two =>
    simp only [List.filterMap_append, List.append_eq_nil_iff] at unasked
    exact (one unasked.1).trans (two unasked.2)

/-- Messages are sent under fresh ids, and nobody is answered. -/
inductive Sends : Radio → Radio → Prop
  | idle {r s : Radio} (still : r.Idle s) : Sends r s
  | fresh (r : Radio) (peer : NodeId) (packet : Message) : Sends r (r.sendFresh peer packet).1
  | trans {r s t : Radio} (first : Sends r s) (second : Sends s t) : Sends r t

theorem Sends.refl (r : Radio) : Sends r r := .idle (Idle.refl r)

theorem Sends.remembers (h : Sends r s) : s.self = r.self ∧ s.remembered = r.remembered := by
  induction h with
  | idle still => exact ⟨still.self, still.remembered⟩
  | fresh r peer packet =>
    obtain ⟨_, passes⟩ := r.sendFresh_passes peer packet
    exact ⟨passes.self, passes.remembered⟩
  | trans _ _ one two => exact ⟨two.1.trans one.1, two.2.trans one.2⟩

theorem Sends.grows (h : Sends r s) : r.Grows s := by
  induction h with
  | idle still => exact still.toQuiet.grows
  | fresh r peer packet => exact r.sendFresh_grows peer packet
  | trans _ _ one two => exact one.trans two

end Radio
end CoapNode
