import CoapNode.Proofs.Node.AtMostOnce
import CoapNode.Proofs.Packet.Reading
import CoapNode.Proofs.Packet.Refusing
import CoapNode.Proofs.Radio.Steadiness
/-! No answers to answers. Of the datagrams that cannot be read only requests are answered, each
by one error response that is no request itself; acknowledgements and resets are not answered
at all. Whatever cannot be read is settled without a service and leaves no trace in any table. -/
namespace CoapNode

namespace Radio

variable {r : Radio} {refusal : Refusal 128}

theorem reject_unasked (peer : NodeId)
    (unasked : refusal.cause = .notCoap ∨ ¬ refusal.remains.heading.Asks) :
    ∃ log, r.reject peer refusal = ({ r with log }, .ok .dropped) := by
  unfold reject
  split
  · exact ⟨_, rfl⟩
  next known =>
  have silent := unasked.resolve_left known
  have none : ∀ s : Radio, s.rejectionHead refusal.remains = none := by
    intro s
    unfold rejectionHead
    split
    · next request =>
      cases kind : refusal.remains.kind with
      | confirmable => exact absurd ⟨.inl kind, request⟩ silent
      | nonConfirmable => exact absurd ⟨.inr kind, request⟩ silent
      | acknowledgement | reset => rfl
    · rfl
  simp only [none]
  exact ⟨_, rfl⟩

/-- The answer to a malformed request: an acknowledgement of it, or a message of its own under
the next id. It says what was wrong and carries no option. -/
structure Rejects (r : Radio) (h : Heading) (fault : Code) (answer : Message) : Prop where
  addressed : h.kind = .confirmable ∧ answer.kind = .acknowledgement ∧ answer.id = h.id ∨
    h.kind = .nonConfirmable ∧ answer.kind = .nonConfirmable ∧ answer.id = r.nextId
  code : answer.code = fault
  optionless : answer.options = []
  token : answer.token = .empty
  readable : ∃ q, Packet.decode 128 answer.datagram = .ok q ∧ q.agrees answer = true

theorem message_short (e : CodecError) : (textBytes e.message).length ≤ 128 := by
  cases e <;> decide +kernel

def diagnosis (kind : MessageKind) (code : Code) (id : MessageId) (cause : CodecError) : Message :=
  { Packet.headerOnly 128 kind code id with payload := textBytes cause.message }

theorem diagnosis_written (kind : MessageKind) (code : Code) (id : MessageId)
    (cause : CodecError) :
    ({ emptyMessage kind id with code } : Message).setPayload (textBytes cause.message) =
      .ok (diagnosis kind code id cause) := by
  have room : ¬ 128 < (textBytes cause.message).length := Nat.not_lt_of_le (message_short cause)
  rw [Packet.setPayload_eq, if_neg (by simpa [emptyMessage, Packet.fresh] using room)]
  rfl

theorem diagnosis_canonical (kind : MessageKind) (code : Code) (id : MessageId)
    (cause : CodecError) : (diagnosis kind code id cause).Canonical := by
  have h := Packet.headerOnly_canonical 128 kind code id
  exact h.setPayload (diagnosis_written kind code id cause)

theorem diagnosis_fits (kind : MessageKind) (code : Code) (id : MessageId) (cause : CodecError) :
    (diagnosis kind code id cause).serializedLength ≤ datagramBuffer := by
  have := message_short cause
  simp only [Packet.serializedLength, diagnosis, Packet.headerOnly, Packet.fresh,
    Packet.needsEndMarker, headerLength, datagramBuffer, unstatedCount]
  simp
  omega

theorem diagnosis_readable (kind : MessageKind) {code : Code} (fault : code ∈ faultCodes)
    (id : MessageId) (cause : CodecError) :
    ∃ q, Packet.decode 128 (diagnosis kind code id cause).datagram = .ok q ∧
      q.agrees (diagnosis kind code id cause) = true := by
  refine ⟨_, (diagnosis_canonical kind code id cause).decode_datagram rfl
    (ofByte_toByte_of_mem_faultCodes fault), ?_⟩
  simp [Packet.agrees]

theorem diagnosis_options (kind : MessageKind) (code : Code) (id : MessageId)
    (cause : CodecError) : (diagnosis kind code id cause).options = [] :=
  Packet.options_of_region_nil rfl

theorem diagnosis_token (kind : MessageKind) (code : Code) (id : MessageId) (cause : CodecError) :
    (diagnosis kind code id cause).token = .empty := by
  rw [(diagnosis_canonical kind code id cause).token_eq, diagnosis_options]
  rfl

theorem diagnosis_rejects {h : Heading} {fault : Code} {kind : MessageKind} {id : MessageId}
    (known : fault ∈ faultCodes) (cause : CodecError)
    (addressed : h.kind = .confirmable ∧ kind = .acknowledgement ∧ id = h.id ∨
      h.kind = .nonConfirmable ∧ kind = .nonConfirmable ∧ id = r.nextId) :
    r.Rejects h fault (diagnosis kind fault id cause) where
  addressed := addressed
  code := rfl
  optionless := diagnosis_options kind fault id cause
  token := diagnosis_token kind fault id cause
  readable := diagnosis_readable kind known id cause

def rejectionResult (refused : Option Nat) : Except RuntimeError Inbound :=
  match refused with
  | none => .ok .rejected
  | some code => .error ⟨.transport code, .receiving⟩

def idAfter (r : Radio) (kind : MessageKind) : MessageId :=
  if kind = .nonConfirmable then r.nextId.next else r.nextId

theorem rejectionHead_asked (r : Radio) {packet : Message} (asks : packet.heading.Asks) :
    ∃ kind id, r.rejectionHead packet =
        some ({ r with nextId := r.idAfter packet.kind }, emptyMessage kind id) ∧
      (packet.kind = .confirmable ∧ kind = .acknowledgement ∧ id = packet.id ∨
        packet.kind = .nonConfirmable ∧ kind = .nonConfirmable ∧ id = r.nextId) := by
  obtain ⟨kind, request⟩ := asks
  replace request : packet.isRequest = true := request
  unfold rejectionHead
  rw [if_pos request]
  rcases kind with kind | kind
  · replace kind : packet.kind = .confirmable := kind
    rw [kind]
    exact ⟨.acknowledgement, packet.id, rfl, .inl ⟨rfl, rfl, rfl⟩⟩
  · replace kind : packet.kind = .nonConfirmable := kind
    rw [kind]
    exact ⟨.nonConfirmable, r.nextId, rfl, .inr ⟨rfl, rfl, rfl⟩⟩

/-- A malformed request is answered by one rejection; an id drawn for it apart, only the network
and the log hear of it. -/
theorem reject_asked (r : Radio) (peer : NodeId) (known : refusal.cause ≠ .notCoap)
    (asks : refusal.remains.heading.Asks) (fault : refusal.remains.fault.code ∈ faultCodes) :
    ∃ s answer, r.reject peer refusal = (s, rejectionResult r.refusal) ∧
      r.Rejects refusal.remains.heading refusal.remains.fault.code answer ∧
      { r with nextId := r.idAfter refusal.remains.kind }.Offered s
        [⟨peer, answer, answer.datagram, .receiving, r.refusal⟩] := by
  rw [reject, if_neg known]
  generalize refused : r.note .warn
    ("rejecting message from " ++ toString peer ++ ": " ++ refusal.cause.message) = t
  obtain ⟨kind, id, head, addressed⟩ := t.rejectionHead_asked asks
  obtain ⟨s, sent, log, outcomes, whole⟩ := Radio.transmit_of_fits
    { t with nextId := t.idAfter refusal.remains.kind } peer .receiving
    (diagnosis_fits kind refusal.remains.fault.code id refusal.cause)
  have network : ({ t with nextId := t.idAfter refusal.remains.kind } : Radio).refusal =
      r.refusal := by
    subst refused
    rfl
  simp only [head, diagnosis_written, sent]
  refine ⟨s, diagnosis kind refusal.remains.fault.code id refusal.cause, ?_, ?_, ?_⟩
  · rw [network]
    cases r.refusal <;> rfl
  · subst refused
    exact diagnosis_rejects fault refusal.cause addressed
  · subst refused
    exact ⟨log, outcomes, whole⟩

end Radio

namespace Node

variable {n : Node} {peer : NodeId} {bytes : List UInt8}

/-- No table, no history, no timer and no application has noticed. -/
structure Undisturbed (n n' : Node) : Prop where
  resources : n'.radio.resources = n.radio.resources
  nextRegistration : n'.radio.nextRegistration = n.radio.nextRegistration
  unacknowledged : n'.radio.unacknowledged = n.radio.unacknowledged
  remembered : n'.radio.remembered = n.radio.remembered
  scheduled : n'.radio.scheduled = n.radio.scheduled
  journal : n'.journal = n.journal
  stash : n'.stash = n.stash

/-- Nothing was offered to the network. -/
structure Silent (n n' : Node) : Prop where
  transmissions : n'.radio.transmissions = n.radio.transmissions
  network : n'.radio.network = n.radio.network

/-! ## Datagrams that are dropped -/

theorem settles_own (n : Node) (bytes : List UInt8) (own : peer = n.radio.self) :
    ∃ log, n.Settles peer bytes { n with radio := { n.radio with log } } (.ok .dropped) :=
  ⟨_, fun services => by rw [receive, if_pos own]; rfl⟩

theorem settles_unasked {refusal : Refusal 128} (other : peer ≠ n.radio.self)
    (refused : Packet.decode 128 bytes = .error refusal)
    (unasked : refusal.cause = .notCoap ∨ ¬ refusal.remains.heading.Asks) :
    ∃ log, n.Settles peer bytes { n with radio := { n.radio with log } } (.ok .dropped) := by
  obtain ⟨log, dropped⟩ := n.radio.reject_unasked peer unasked
  exact ⟨log, fun services => by simp only [receive, if_neg other, refused, dropped]⟩

theorem settles_asked {refusal : Refusal 128} (other : peer ≠ n.radio.self)
    (refused : Packet.decode 128 bytes = .error refusal) (known : refusal.cause ≠ .notCoap)
    (asks : refusal.remains.heading.Asks) (fault : refusal.remains.fault.code ∈ faultCodes) :
    ∃ s answer, n.Settles peer bytes { n with radio := s }
        (Radio.rejectionResult n.radio.refusal) ∧
      n.radio.Rejects refusal.remains.heading refusal.remains.fault.code answer ∧
      { n.radio with nextId := n.radio.idAfter refusal.remains.kind }.Offered s
        [⟨peer, answer, answer.datagram, .receiving, n.radio.refusal⟩] := by
  obtain ⟨s, answer, done, rejects, offered⟩ := n.radio.reject_asked peer known asks fault
  exact ⟨s, answer, fun services => by simp only [receive, if_neg other, refused, done],
    rejects, offered⟩

/-! ## Acknowledgements and resets -/

theorem peerResets_idle (services : List Service) (n : Node) (peer : NodeId)
    (token : ShortBytes) :
    n.radio.Idle (Service.forEach (·.peerReset · peer token) services n).2.radio :=
  Service.forEach_related Radio.Idle.refl Radio.Idle.trans
    (fun s _ n => s.peerReset_idle n peer token) n

theorem takeUnacknowledged_silent (r : Radio) (peer : NodeId) (id : MessageId) :
    (r.takeUnacknowledged peer id).1.transmissions = r.transmissions ∧
      (r.takeUnacknowledged peer id).1.network = r.network := by
  rcases takeUnacknowledged_cases r peer id with ⟨taken, -⟩ | ⟨i, e, -, -, -, taken⟩ <;>
    rw [taken] <;> exact ⟨rfl, rfl⟩

theorem receiveReply_silent (n : Node) (peer : NodeId) (packet : Message)
    (services : List Service) : n.Silent (n.receiveReply peer packet services).1 := by
  obtain ⟨transmissions, network⟩ := takeUnacknowledged_silent n.radio peer packet.id
  have taken : n.Silent { n with radio := (n.radio.takeUnacknowledged peer packet.id).1 } :=
    ⟨transmissions, network⟩
  have later : ∀ {m m' : Node}, n.Silent m → m.radio.Idle m'.radio → n.Silent m' :=
    fun silent idle => ⟨idle.transmissions.trans silent.transmissions,
      idle.network.trans silent.network⟩
  unfold receiveReply
  generalize n.radio.takeUnacknowledged peer packet.id = found at taken ⊢
  obtain ⟨radio, sent⟩ := found
  simp only
  split
  · apply later taken
    exact (Radio.note_idle radio .debug
      (packet.id.inspect ++ " was reset by " ++ toString peer)).trans
        (peerResets_idle services (Node.note ⟨radio, n.journal, n.stash⟩ .debug _) peer _)
  · exact later taken (askUnmatched_idle _ peer packet.id services)
  · split <;> exact taken
  · exact taken

theorem receive_reply_silent {packet : Message} (services : List Service)
    (read : Packet.decode 128 bytes = .ok packet)
    (kind : packet.kind = .acknowledgement ∨ packet.kind = .reset) :
    n.Silent (n.receive peer bytes services).1 := by
  by_cases own : peer = n.radio.self
  · obtain ⟨log, settled⟩ := n.settles_own bytes own
    rw [settled services]
    exact ⟨rfl, rfl⟩
  · rw [(n.receive_of_decode services own read).1 kind]
    have silent := (n.heard peer packet).receiveReply_silent peer packet services
    exact ⟨silent.transmissions, silent.network⟩

/-! ## Datagrams that cannot be read -/

/-- A datagram that cannot be read disturbs nothing, and is answered if it is a request of another
node. -/
inductive Dismisses (n : Node) (peer : NodeId) (bytes : List UInt8) (refusal : Refusal 128) : Prop
  | dropped (log : List LogRecord)
      (settles : n.Settles peer bytes { n with radio := { n.radio with log } } (.ok .dropped))
      (unasked : peer = n.radio.self ∨ ∀ h, Opens bytes h → ¬ h.Asks)
  | answered {s : Radio} {answer : Message} {h : Heading}
      (settles : n.Settles peer bytes { n with radio := s }
        (Radio.rejectionResult n.radio.refusal))
      (other : peer ≠ n.radio.self) (opens : Opens bytes h) (asks : h.Asks)
      (rejects : n.radio.Rejects h refusal.remains.fault.code answer)
      (offered : { n.radio with nextId := n.radio.idAfter h.kind }.Offered s
        [⟨peer, answer, answer.datagram, .receiving, n.radio.refusal⟩])

theorem Opens.length {bytes : List UInt8} {h : Heading} (opens : Opens bytes h) :
    headerLength ≤ bytes.length := by
  cases opens
  simp [headerLength]

theorem dismisses_refused (n : Node) (peer : NodeId) {refusal : Refusal 128}
    (refused : Packet.decode 128 bytes = .error refusal) : n.Dismisses peer bytes refusal := by
  by_cases own : peer = n.radio.self
  · obtain ⟨log, settles⟩ := n.settles_own bytes own
    exact .dropped log settles (.inl own)
  cases Packet.decode_outcome 128 bytes with
  | short few refused' cause =>
    rw [refused] at refused'
    cases refused'
    obtain ⟨log, settles⟩ := n.settles_unasked own refused (.inl cause)
    refine .dropped log settles (.inr fun h opens => ?_)
    have := Opens.length opens
    omega
  | refused refused' cause opens code =>
    rw [refused] at refused'
    cases refused'
    by_cases asks : refusal.remains.heading.Asks
    · obtain ⟨s, answer, settles, rejects, offered⟩ :=
        n.settles_asked own refused cause asks code
      exact .answered settles own opens asks rejects offered
    · obtain ⟨log, settles⟩ := n.settles_unasked own refused (.inr asks)
      exact .dropped log settles (.inr fun h opens' => opens.unique opens' ▸ asks)
  | read read opens =>
    rw [refused] at read
    cases read

/-- The datagram is too short, the node's own, a reply, or not to be read and no request. -/
def Unanswerable (n : Node) (peer : NodeId) (bytes : List UInt8) : Prop :=
  bytes.length < headerLength ∨ peer = n.radio.self ∨
    (∃ h, Opens bytes h ∧ (h.kind = .acknowledgement ∨ h.kind = .reset)) ∨
    ((∃ refusal, Packet.decode 128 bytes = .error refusal) ∧ ∀ h, Opens bytes h → ¬ h.Asks)

theorem Unanswerable.not_asks {h : Heading} (unanswerable : n.Unanswerable peer bytes)
    (other : peer ≠ n.radio.self) (opens : Opens bytes h) : ¬ h.Asks := by
  rintro ⟨original, request⟩
  rcases unanswerable with few | own | ⟨h', opens', reply⟩ | ⟨-, unasked⟩
  · have := Opens.length opens
    omega
  · exact other own
  · rw [opens'.unique opens] at reply
    rcases original with kind | kind <;> simp [kind] at reply
  · exact unasked h opens ⟨original, request⟩

theorem receive_unanswerable (services : List Service) (unanswerable : n.Unanswerable peer bytes) :
    n.Silent (n.receive peer bytes services).1 := by
  cases read : Packet.decode 128 bytes with
  | error refusal =>
    cases n.dismisses_refused peer read with
    | dropped log settles _ =>
      rw [settles services]
      exact ⟨rfl, rfl⟩
    | answered _ other opens asks _ _ => exact absurd asks (unanswerable.not_asks other opens)
  | ok packet =>
    have opens : Opens bytes packet.heading := by
      cases Packet.decode_outcome 128 bytes with
      | short _ refused _ | refused refused _ _ _ => rw [read] at refused; cases refused
      | read read' opens => rw [read] at read'; cases read'; exact opens
    rcases unanswerable with few | own | ⟨h, opens', kind⟩ | ⟨⟨refusal, refused⟩, -⟩
    · have := Opens.length opens
      omega
    · obtain ⟨log, settled⟩ := n.settles_own bytes own
      rw [settled services]
      exact ⟨rfl, rfl⟩
    · rw [← opens.unique opens'] at kind
      exact receive_reply_silent services read kind
    · rw [read] at refused
      cases refused

/-- A node answers neither replies nor what it cannot make out. A request of another node that
cannot be read gets one error response. Whatever cannot be read is settled whichever services
there are, and disturbs nothing. -/
theorem malformed_or_reply_received (n : Node) (peer : NodeId) (bytes : List UInt8)
    (services : List Service) :
    let n' := (n.receive peer bytes services).1
    (n.Unanswerable peer bytes → n.Silent n') ∧
    (∀ refusal h, Packet.decode 128 bytes = .error refusal → peer ≠ n.radio.self →
      Opens bytes h → h.Asks →
        ∃ t, n'.radio.transmissions = n.radio.transmissions ++ [t] ∧ t.peer = peer ∧
          t.bytes = t.packet.datagram ∧
          n'.radio.network.delivered = n.radio.network.delivered ++ t.delivered ∧
          n.radio.Rejects h refusal.remains.fault.code t.packet ∧
          n'.radio.nextId = n.radio.idAfter h.kind ∧
          (n.receive peer bytes services).2.2 = Radio.rejectionResult t.refusal) ∧
    (∀ refusal, Packet.decode 128 bytes = .error refusal →
      ∃ n' result, n.Settles peer bytes n' result ∧ n.Undisturbed n') := by
  refine ⟨receive_unanswerable services, ?_, ?_⟩
  · intro refusal h refused other opens asks
    cases n.dismisses_refused peer refused with
    | dropped log settles unasked =>
      rcases unasked with own | unasked
      · exact absurd own other
      · exact absurd asks (unasked h opens)
    | answered settles _ opens' _ rejects offered =>
      rw [opens'.unique opens] at rejects offered
      obtain ⟨log, outcomes, rfl⟩ := offered
      rw [settles services]
      exact ⟨_, rfl, rfl, rfl, by simp, rejects, rfl, rfl⟩
  · intro refusal refused
    cases n.dismisses_refused peer refused with
    | dropped log settles _ => exact ⟨_, _, settles, rfl, rfl, rfl, rfl, rfl, rfl, rfl⟩
    | answered settles _ _ _ _ offered =>
      obtain ⟨log, outcomes, rfl⟩ := offered
      exact ⟨_, _, settles, rfl, rfl, rfl, rfl, rfl, rfl, rfl⟩

/-- A request whose announced option is missing, the same of the node's own, and three bytes. -/
theorem malformed_or_reply_received_overrun :
    let n := (Run.start 0 {} {}).node
    let bytes := [0x51, 1, 0x12, 0x34]
    let h : Heading := ⟨.nonConfirmable, Code.get, ⟨0x1234⟩⟩
    (∃ refusal, Packet.decode 128 bytes = .error refusal ∧ 2 ≠ n.radio.self ∧
      Opens bytes h ∧ h.Asks ∧ ∃ t, (n.receive 2 bytes []).1.radio.transmissions = [t] ∧
        n.radio.Rejects h Code.badRequest t.packet) ∧
    n.Unanswerable 0 bytes ∧ n.Silent (n.receive 0 bytes []).1 ∧
    n.Unanswerable 2 [0x51, 1, 0x12] ∧ n.Silent (n.receive 2 [0x51, 1, 0x12] []).1 := by
  intro n bytes h
  have own : n.Unanswerable 0 bytes := .inr (.inl rfl)
  have few : n.Unanswerable 2 [0x51, 1, 0x12] := .inl (by decide)
  have opens : Opens bytes h := .header rfl rfl rfl rfl
  have asks : h.Asks := ⟨.inr rfl, by decide⟩
  refine ⟨?_, own, (malformed_or_reply_received n 0 bytes []).1 own, few,
    (malformed_or_reply_received n 2 _ []).1 few⟩
  have code : ((Packet.decode 128 bytes).mapError (·.remains.fault.code)).map (fun _ => ()) =
      .error Code.badRequest := by decide +kernel
  cases read : Packet.decode 128 bytes with
  | ok packet =>
    rw [read] at code
    cases code
  | error refusal =>
    rw [read] at code
    replace code : refusal.remains.fault.code = Code.badRequest := Except.error.inj code
    obtain ⟨t, offered, -, -, -, rejects, -⟩ :=
      (malformed_or_reply_received n 2 bytes []).2.1 refusal h read (by decide) opens asks
    rw [code] at rejects
    exact ⟨refusal, rfl, by decide, opens, asks, t, offered, rejects⟩

end Node
end CoapNode
