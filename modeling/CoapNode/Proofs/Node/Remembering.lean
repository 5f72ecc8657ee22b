import Mathlib.Data.List.DropRight
import CoapNode.Proofs.Node.Conduct
import CoapNode.Proofs.Node.Retransmission
/-! The messages a node remembers to recognize duplicates. They are the last few that were new
when they came, whatever else the node did; a message that is among them gets its answer again
and concerns nobody else. -/
namespace CoapNode

def Remembered.key (e : Remembered) : NodeId × MessageId := (e.peer, e.id)

/-- The stored response, if there is one, fits a datagram. -/
def Remembered.Answerable (e : Remembered) : Prop :=
  ∀ response ∈ e.response, response.serializedLength ≤ datagramBuffer

namespace Radio

/-- The keys of the messages received lately, the oldest first. -/
def recent (r : Radio) : List (NodeId × MessageId) := r.remembered.map (·.key)

/-- The history of received messages is short, without repetitions, and good to answer from. -/
structure Mindful (r : Radio) : Prop where
  bounded : r.recent.length ≤ receivedHistory
  distinct : r.recent.Nodup
  answerable : ∀ e ∈ r.remembered, e.Answerable

/-- The same messages are remembered. Only for these keys may a response have been stored. -/
structure Recalls (r s : Radio) (answered : List (NodeId × MessageId)) : Prop where
  self : s.self = r.self
  recent : s.recent = r.recent
  entries : ∀ e ∈ s.remembered, e ∈ r.remembered ∨ e.key ∈ answered ∧ e.Answerable

variable {r s t : Radio} {m m' : Received} {answered answered' : List (NodeId × MessageId)}

/-! ## What leaves the history as it is -/

theorem recalls_of_same (self : s.self = r.self) (remembered : s.remembered = r.remembered)
    (answered : List (NodeId × MessageId)) : r.Recalls s answered := by
  refine ⟨self, by simp [recent, remembered], ?_⟩
  intro e member
  exact .inl (remembered ▸ member)

theorem Recalls.refl (r : Radio) : r.Recalls r answered := recalls_of_same rfl rfl answered

theorem Recalls.mono (h : r.Recalls s answered) (more : answered ⊆ answered') :
    r.Recalls s answered' :=
  ⟨h.self, h.recent, fun e member => (h.entries e member).imp_right (.imp_left (more ·))⟩

theorem Recalls.trans (h : r.Recalls s answered) (h' : s.Recalls t answered) :
    r.Recalls t answered := by
  refine ⟨h'.self.trans h.self, h'.recent.trans h.recent, ?_⟩
  intro e member
  rcases h'.entries e member with old | new
  · exact h.entries e old
  · exact .inr new

theorem Idle.recalls (h : r.Idle s) : r.Recalls s answered :=
  recalls_of_same h.self h.remembered answered

theorem Sends.recalls (h : Sends r s) : r.Recalls s answered :=
  recalls_of_same h.remembers.1 h.remembers.2 answered

theorem schedule_recalls (r : Radio) (after : Nat) (event : TimerEvent) :
    r.Recalls (r.schedule after event) answered := ⟨rfl, rfl, fun _ member => .inl member⟩

theorem storeResponse_recalls (r : Radio) (peer : NodeId) (id : MessageId) {response : Message}
    (fits : response.serializedLength ≤ datagramBuffer) :
    r.Recalls (r.storeResponse peer id response) [(peer, id)] := by
  simp only [storeResponse]
  split
  · exact Recalls.refl r
  next i found =>
  obtain ⟨inside, same, -⟩ := List.findIdx?_eq_some_iff_getElem.mp found
  simp only [Bool.and_eq_true, beq_iff_eq] at same
  refine ⟨rfl, ?_, ?_⟩
  · apply List.ext_getElem?
    intro j
    simp only [recent, List.getElem?_map, List.getElem?_modify]
    split <;> cases r.remembered[j]? <;> rfl
  · intro e member
    obtain ⟨j, there⟩ := List.mem_iff_getElem?.mp member
    by_cases here : i = j
    · subst here
      right
      simp only [List.getElem?_modify, List.getElem?_eq_getElem inside, if_pos,
        Option.map_eq_map, Option.map_some, Option.some.injEq] at there
      rw [← there]
      exact ⟨by simp [Remembered.key, same], by simp [Remembered.Answerable, fits]⟩
    · left
      simp only [List.getElem?_modify, if_neg here, Option.map_eq_map, Option.map_id'] at there
      exact List.mem_of_getElem? there

theorem Responds.recalls (h : r.Responds m s m') : r.Recalls s [m.key] := by
  cases h with
  | failed passes => exact recalls_of_same passes.self passes.remembered _
  | sent passes =>
    exact (recalls_of_same passes.self passes.remembered _).trans
      (storeResponse_recalls _ _ _ (passes.fits rfl))

/-- While services have a message, nothing is stored but responses to it, under the keys that it
has meanwhile. -/
theorem Conduct.recalls {deeds : List Deed} (h : Conduct r m deeds s m') :
    r.Recalls s (m.key :: deeds.filterMap (·.rekeyed?)) := by
  induction h with
  | idle still => exact still.recalls
  | respond r m response => exact (r.respond_responds m response).recalls
  | acknowledge r m =>
    have passes := (r.acknowledge_passes m).1
    exact recalls_of_same passes.self passes.remembered _
  | mark r | markAnswered r | unmark r | rewrite r => exact Recalls.refl r
  | send r m peer mode packet =>
    obtain ⟨_, passes⟩ := r.dispatch_passes peer mode packet
    exact recalls_of_same passes.self passes.remembered _
  | schedule r m after event => exact r.schedule_recalls after event
  | trans first _ one two =>
    have key := first.key
    rw [List.filterMap_append]
    refine (one.mono ?_).trans (two.mono ?_)
    · exact List.cons_subset_cons _ (List.subset_append_left _ _)
    · refine List.cons_subset.mpr ⟨?_, fun k member => ?_⟩
      · simp only [List.mem_cons, List.mem_append]
        exact key.imp_right .inl
      · exact List.mem_cons_of_mem _ (List.mem_append_right _ member)

/-! ## A new message -/

def enrol (r : Radio) (new : Option (NodeId × MessageId)) : Radio :=
  new.elim r fun key => r.remember key.1 key.2

theorem remember_recent (r : Radio) (peer : NodeId) (id : MessageId)
    (bounded : r.recent.length ≤ receivedHistory) :
    (r.remember peer id).recent = (r.recent ++ [(peer, id)]).rtake receivedHistory := by
  have bounded' : r.remembered.length ≤ 16 := by simpa [recent, receivedHistory] using bounded
  rw [receivedHistory, List.rtake_concat_succ, List.rtake]
  by_cases full : receivedHistory ≤ r.remembered.length
  · have excess : r.remembered.length - 15 = 1 := by
      simp only [receivedHistory] at full
      omega
    simp [remember, recent, full, excess, Remembered.key]
  · have excess : r.remembered.length - 15 = 0 := by
      simp only [receivedHistory] at full
      omega
    simp [remember, recent, full, excess, Remembered.key]

theorem enrol_recent (bounded : r.recent.length ≤ receivedHistory)
    (new : Option (NodeId × MessageId)) :
    (r.enrol new).recent = (r.recent ++ new.toList).rtake receivedHistory := by
  cases new with
  | none => simp [enrol, List.rtake, Nat.sub_eq_zero_of_le bounded]
  | some key => exact r.remember_recent key.1 key.2 bounded

theorem Idle.enrol (h : r.Idle s) (new : Option (NodeId × MessageId)) :
    (r.enrol new).Recalls (s.enrol new) answered := by
  cases new with
  | none => exact h.recalls
  | some key =>
    have same : (s.remember key.1 key.2).remembered = (r.remember key.1 key.2).remembered := by
      simp [remember, h.remembered]
    exact recalls_of_same (r := r.remember key.1 key.2) (s := s.remember key.1 key.2) h.self same
      answered

theorem mem_enrol {new : Option (NodeId × MessageId)} {e : Remembered}
    (member : e ∈ (r.enrol new).remembered) :
    e ∈ r.remembered ∨ new = some e.key ∧ e.response = none := by
  cases new with
  | none => exact .inl member
  | some key =>
    simp only [enrol, Option.elim_some, remember, List.mem_append, List.mem_singleton] at member
    rcases member with kept | rfl
    · left
      split at kept
      · exact List.mem_of_mem_drop kept
      · exact kept
    · exact .inr ⟨rfl, rfl⟩

theorem Mindful.enrol (mindful : r.Mindful) {new : Option (NodeId × MessageId)}
    (unknown : ∀ key ∈ new, key ∉ r.recent) : (r.enrol new).Mindful where
  bounded := by
    simp only [enrol_recent mindful.bounded, List.rtake, List.length_drop]
    omega
  distinct := by
    rw [enrol_recent mindful.bounded]
    apply (List.drop_sublist _ _).nodup
    simp only [List.nodup_append]
    refine ⟨mindful.distinct, by cases new <;> simp, ?_⟩
    rintro key old _ fresh rfl
    exact unknown key (Option.mem_toList.mp fresh) old
  answerable := by
    intro e member
    rcases mem_enrol member with old | ⟨-, unanswered⟩
    · exact mindful.answerable e old
    · simp [Remembered.Answerable, unanswered]

theorem Mindful.unique (mindful : r.Mindful) {e e' : Remembered} (member : e ∈ r.remembered)
    (member' : e' ∈ r.remembered) (same : e.key = e'.key) : e = e' :=
  List.inj_on_of_nodup_map mindful.distinct member member' same

theorem Mindful.recalls (mindful : r.Mindful) (h : r.Recalls s answered) : s.Mindful where
  bounded := h.recent ▸ mindful.bounded
  distinct := h.recent ▸ mindful.distinct
  answerable := by
    intro e member
    rcases h.entries e member with old | ⟨-, answerable⟩
    · exact mindful.answerable e old
    · exact answerable

end Radio

/-! ## What an operation brings and stores -/

/-- Whether a message of this kind asks for an answer of its own. -/
def MessageKind.original : MessageKind → Bool
  | .confirmable | .nonConfirmable => true
  | .acknowledgement | .reset => false

theorem MessageKind.original_eq_true (kind : MessageKind) :
    kind.original = true ↔ kind = .confirmable ∨ kind = .nonConfirmable := by
  cases kind <;> simp [original]

theorem MessageKind.original_eq_false (kind : MessageKind) :
    kind.original = false ↔ kind = .acknowledgement ∨ kind = .reset := by
  cases kind <;> simp [original]

def Action.answers : Action → Bool
  | .reply _ _ | .respond _ | .echoPath => true
  | _ => false

namespace Node

/-- The key of a well-formed message from another node that asks for an answer of its own. -/
def original? (n : Node) (peer : NodeId) (bytes : List UInt8) : Option (NodeId × MessageId) :=
  match Packet.decode 128 bytes with
  | .ok packet =>
    if peer ≠ n.radio.self ∧ packet.kind.original then some (peer, packet.id) else none
  | .error _ => none

def new? (n : Node) (peer : NodeId) (bytes : List UInt8) : Option (NodeId × MessageId) :=
  (n.original? peer bytes).filter (· ∉ n.radio.recent)

def arrival (n : Node) : Operation → Option (NodeId × MessageId)
  | .receive peer bytes _ => n.new? peer bytes
  | _ => none

/-- The messages that an operation may answer: the new one, under whichever key a handler gives
it, or the one that the application kept. -/
def answering (n : Node) : Operation → List (NodeId × MessageId)
  | .receive peer bytes services =>
    (n.new? peer bytes).toList ++ (n.receive peer bytes services).1.rekeyedSince n
  | .perform action m => if action.answers then [m.key] else []
  | _ => []

variable {n : Node} {peer : NodeId} {bytes : List UInt8} {packet : Message}
  {key : NodeId × MessageId} {answered : List (NodeId × MessageId)}

theorem original?_of_decode (other : peer ≠ n.radio.self)
    (read : Packet.decode 128 bytes = .ok packet) (kind : packet.kind.original = true) :
    n.original? peer bytes = some (peer, packet.id) := by
  simp [original?, read, other, kind]

theorem original?_eq_some : n.original? peer bytes = some key ↔
    ∃ packet, Packet.decode 128 bytes = .ok packet ∧ peer ≠ n.radio.self ∧
      packet.kind.original = true ∧ key = (peer, packet.id) := by
  cases read : Packet.decode 128 bytes with
  | error refusal => simp [original?, read]
  | ok packet => simp [original?, read, and_assoc, @eq_comm _ key]

theorem new?_eq_some : n.new? peer bytes = some key ↔
    n.original? peer bytes = some key ∧ key ∉ n.radio.recent := by
  simp [new?, Option.filter_eq_some_iff]

theorem find?_known_eq_none (r : Radio) (peer : NodeId) (id : MessageId) :
    (r.remembered.find? fun s => s.peer == peer && s.id == id) = none ↔
      (peer, id) ∉ r.recent := by
  simp [Radio.recent, Remembered.key]

theorem exists_read (bytes : List UInt8) (property : Message → Bool)
    (holds : (Packet.decode 128 bytes).toOption.any property = true) :
    ∃ packet, Packet.decode 128 bytes = .ok packet ∧ property packet = true := by
  cases read : Packet.decode 128 bytes with
  | error refusal => simp [read, Except.toOption] at holds
  | ok packet => exact ⟨packet, rfl, by simpa [read, Except.toOption] using holds⟩

def entered (n : Node) (peer : NodeId) (packet : Message) : Node :=
  { n.heard peer packet with radio := (n.heard peer packet).radio.remember peer packet.id }

theorem receive_new (n : Node) (services : List Service) (other : peer ≠ n.radio.self)
    (read : Packet.decode 128 bytes = .ok packet) (kind : packet.kind.original = true)
    (unknown : (peer, packet.id) ∉ n.radio.recent) :
    n.receive peer bytes services = (n.entered peer packet).receiveNew peer packet services := by
  have absent : (n.heard peer packet).radio.remembered.find?
      (fun s => s.peer == peer && s.id == packet.id) = none :=
    (find?_known_eq_none n.radio peer packet.id).mpr unknown
  rw [(n.receive_of_decode services other read).2 (packet.kind.original_eq_true.mp kind)]
  simp only [receiveOriginal, absent, entered]

theorem receiveReply_recalls (n : Node) (peer : NodeId) (packet : Message)
    (services : List Service) (reply : packet.kind.original = false) :
    n.radio.Recalls (n.receiveReply peer packet services).1.radio answered := by
  simp only [receiveReply]
  rcases takeUnacknowledged_cases n.radio peer packet.id with
    ⟨taken, -⟩ | ⟨i, e, -, -, -, taken⟩
  · rw [taken]
    cases kind : packet.kind with
    | confirmable | nonConfirmable => simp [kind, MessageKind.original] at reply
    | acknowledgement =>
      simp only
      split <;> exact Radio.Recalls.refl _
    | reset => exact (n.askUnmatched_tends peer packet.id services).sends.recalls
  · rw [taken]
    have same : n.radio.Recalls (n.radio.without i) answered :=
      ⟨rfl, rfl, fun _ member => .inl member⟩
    cases kind : packet.kind with
    | confirmable | nonConfirmable => simp [kind, MessageKind.original] at reply
    | acknowledgement =>
      simp only
      split <;> exact same
    | reset =>
      have told := (note_tends { n with radio := n.radio.without i } .debug
        (packet.id.inspect ++ " was reset by " ++ toString peer)).trans
        (Service.forEach_tends (fun s n => s.peerReset_tends n peer e.packet.token) services _)
      exact same.trans told.sends.recalls

theorem receiveNew_recalls (n : Node) (peer : NodeId) (packet : Message)
    (services : List Service) :
    let n' := (n.receiveNew peer packet services).1
    n.radio.Recalls n'.radio ((peer, packet.id) :: n'.rekeyedSince n) := by
  simp only [receiveNew]
  split
  · obtain ⟨_, passes⟩ := n.receivePing_passes peer packet
    exact Radio.recalls_of_same passes.self passes.remembered _
  split
  · obtain ⟨deeds, _, conduct, written⟩ :=
      n.receiveRequest_conduct (Received.fresh packet peer) services
    refine conduct.recalls.mono (List.cons_subset_cons _ fun key member => ?_)
    obtain ⟨deed, done, rekeyed⟩ := List.mem_filterMap.mp member
    rcases written deed done with listed | rfl
    · exact List.mem_filterMap.mpr ⟨deed, listed, rekeyed⟩
    · cases rekeyed
  split
  · obtain ⟨deeds, _, conduct, own⟩ := n.receiveResponse_conduct (Received.fresh packet peer)
    refine conduct.recalls.mono (List.cons_subset_cons _ fun key member => ?_)
    obtain ⟨deed, done, rekeyed⟩ := List.mem_filterMap.mp member
    cases own deed done
    cases rekeyed
  · exact Radio.Recalls.refl _

theorem receiveDuplicate_same (r : Radio) (peer : NodeId) (packet : Message)
    (stored : Option Message) :
    r.Recalls (r.receiveDuplicate peer packet stored).1 answered := by
  have noted := r.note_idle .debug ("duplicate " ++ packet.id.inspect ++ " from " ++
    toString peer)
  simp only [Radio.receiveDuplicate]
  generalize r.note .debug ("duplicate " ++ packet.id.inspect ++ " from " ++ toString peer) = s
    at noted ⊢
  split
  · have passes := Radio.Passes.after_idle noted (s.transmit_passes peer
      (stored.getD (emptyMessage .acknowledgement packet.id)) .receiving)
    have same := Radio.recalls_of_same passes.self passes.remembered answered
    split
    · next done => rw [done] at same; exact same
    · next failed => rw [failed] at same; exact same
  · exact noted.recalls

theorem rejectionHead_idle {r s : Radio} {packet response : Message}
    (head : r.rejectionHead packet = some (s, response)) : r.Idle s := by
  simp only [Radio.rejectionHead] at head
  split at head
  · split at head <;> cases head
    · exact Radio.Idle.refl r
    · exact r.drawId_idle
  · cases head

theorem reject_recalls (r : Radio) (peer : NodeId) (refusal : Refusal 128) :
    r.Recalls (r.reject peer refusal).1 answered := by
  simp only [Radio.reject]
  split
  · exact (r.note_idle _ _).recalls
  have noted := r.note_idle .warn ("rejecting message from " ++ toString peer ++ ": " ++
    refusal.cause.message)
  generalize r.note .warn ("rejecting message from " ++ toString peer ++ ": " ++
    refusal.cause.message) = s at noted ⊢
  split
  · exact noted.recalls
  next drawn response head =>
  have ready := noted.trans (rejectionHead_idle head)
  split
  · exact ready.recalls
  next packet _ =>
  have passes := Radio.Passes.after_idle ready (drawn.transmit_passes peer packet .receiving)
  have same := Radio.recalls_of_same passes.self passes.remembered answered
  split
  · next done => rw [done] at same; exact same
  · next failed => rw [failed] at same; exact same

theorem receiveOriginal_recalls (n : Node) (peer : NodeId) (packet : Message)
    (services : List Service) {new : Option (NodeId × MessageId)}
    (fresh : new = if (peer, packet.id) ∈ n.radio.recent then none else some (peer, packet.id)) :
    let n' := (n.receiveOriginal peer packet services).1
    (n.radio.enrol new).Recalls n'.radio (new.toList ++ n'.rekeyedSince n) := by
  simp only [receiveOriginal]
  split
  · next seen found =>
    have known : (peer, packet.id) ∈ n.radio.recent := by
      by_contra unknown
      rw [(find?_known_eq_none n.radio peer packet.id).mpr unknown] at found
      cases found
    rw [if_pos known] at fresh
    rw [fresh]
    exact receiveDuplicate_same n.radio peer packet seen.response
  · next absent =>
    rw [if_neg ((find?_known_eq_none n.radio peer packet.id).mp absent)] at fresh
    rw [fresh]
    exact receiveNew_recalls { n with radio := n.radio.remember peer packet.id } peer packet
      services

theorem receive_recalls (n : Node) (peer : NodeId) (bytes : List UInt8)
    (services : List Service) :
    let n' := (n.receive peer bytes services).1
    (n.radio.enrol (n.new? peer bytes)).Recalls n'.radio
      ((n.new? peer bytes).toList ++ n'.rekeyedSince n) := by
  intro n'
  by_cases own : peer = n.radio.self
  · have none : n.new? peer bytes = none := by
      simp only [new?, original?, own]
      split <;> simp
    simp only [none, n', receive, if_pos own]
    exact (n.radio.note_idle _ _).recalls
  cases read : Packet.decode 128 bytes with
  | error refusal =>
    have none : n.new? peer bytes = none := by simp [new?, original?, read]
    simp only [none, n', receive, if_neg own, read]
    exact reject_recalls n.radio peer refusal
  | ok packet =>
    obtain ⟨replied, original⟩ := n.receive_of_decode services own read
    have noted : n.radio.Idle (n.heard peer packet).radio := n.radio.note_idle _ _
    cases kind : packet.kind.original with
    | false =>
      have none : n.new? peer bytes = none := by simp [new?, original?, read, kind]
      rw [none]
      simp only [n', replied (packet.kind.original_eq_false.mp kind)]
      exact noted.recalls.trans (receiveReply_recalls _ peer packet services kind)
    | true =>
      have received : n' = ((n.heard peer packet).receiveOriginal peer packet services).1 := by
        rw [← original (packet.kind.original_eq_true.mp kind)]
      have fresh : n.new? peer bytes =
          if (peer, packet.id) ∈ n.radio.recent then none else some (peer, packet.id) := by
        simp only [new?, original?_of_decode own read kind, Option.filter_some]
        split <;> simp_all
      rw [received]
      exact (noted.enrol _).trans
        (receiveOriginal_recalls (n.heard peer packet) peer packet services fresh)

end Node

theorem Action.perform_recalls (a : Action) (n : Node) (m : Received) :
    n.radio.Recalls (a.perform n m).1.radio (if a.answers then [m.key] else []) := by
  have conduct := a.perform_conduct n m false false
  cases a with
  | reply | respond | echoPath => exact conduct.recalls
  | acknowledge =>
    have passes := (n.radio.acknowledge_passes m).1
    simp only [Action.perform]
    generalize n.radio.acknowledge m = done at passes ⊢
    exact Radio.recalls_of_same passes.self passes.remembered _
  | markAcknowledged | markAnswered | unmark | rewrite | stash => exact Radio.Recalls.refl _
  | send peer mode packet =>
    obtain ⟨_, passes⟩ := n.radio.dispatch_passes peer mode packet
    exact Radio.recalls_of_same passes.self passes.remembered _
  | register path => exact (n.radio.register_idle path).recalls
  | unregister id => exact (n.radio.unregister_idle id).recalls
  | schedule after event => exact n.radio.schedule_recalls after event
  | drawId => exact n.radio.drawId_idle.recalls
  | drawToken => exact n.radio.drawToken_idle.recalls

namespace Node

variable {answered : List (NodeId × MessageId)}

theorem repeatMessage_recalls (n : Node) (index : Nat) (e : Unacknowledged) (delay : Nat)
    (backoff : Backoff) :
    n.radio.Recalls (n.repeatMessage index e delay backoff).1.radio answered := by
  apply Radio.recalls_of_same
  · exact (Radio.transmit_passes _ _ _ _).self
  · exact (Radio.transmit_passes _ _ _ _).remembered

theorem giveUp_recalls (n : Node) (index : Nat) (e : Unacknowledged) (services : List Service) :
    n.radio.Recalls (n.giveUp index e services).1.radio answered := by
  have each : ∀ (s : Service) (n : Node),
      n.radio.Sends (s.expired n e.peer e.packet.token).2.radio :=
    fun s n => .idle (s.expired_idle n e.peer e.packet.token)
  apply Radio.recalls_of_same
  · exact (Service.forEach_sends each services _).remembers.1
  · exact (Service.forEach_sends each services _).remembers.2

theorem retransmit_recalls (n : Node) (id : MessageId) (services : List Service) :
    n.radio.Recalls (n.retransmit id services).1.radio answered := by
  simp only [retransmit]
  split
  · exact Radio.Recalls.refl _
  · split
    · exact n.repeatMessage_recalls _ _ _ _
    · exact n.giveUp_recalls _ _ services

end Node

/-- An operation enrols the message that it brings, and stores responses to those that it
answers. -/
theorem Operation.apply_recalls (op : Operation) (n : Node) :
    (n.radio.enrol (n.arrival op)).Recalls (op.apply n).radio (n.answering op) := by
  cases op with
  | receive peer bytes services => exact n.receive_recalls peer bytes services
  | fire event services =>
    cases event with
    | maxAge id =>
      have told := Service.forEach_tends (fun s n => s.timerFires_tends n id) services n
      exact told.sends.recalls
    | retransmit id => exact n.retransmit_recalls id services
  | perform action m => exact action.perform_recalls n m
  | call service c => exact (service.call_sends n.radio c).recalls
  | create spec => exact (Service.create_idle n.radio spec).recalls
  | schedule after event => exact n.radio.schedule_recalls after event
  | drawIds times => exact (n.radio.drawIds_idle _ times).recalls
  | drawTokens times => exact (n.radio.drawTokens_idle _ times).recalls
  | setOutcomes | setClock => exact ⟨rfl, rfl, fun _ member => .inl member⟩

theorem Operation.apply_self (op : Operation) (n : Node) :
    (op.apply n).radio.self = n.radio.self := by
  have kept : (n.radio.enrol (n.arrival op)).self = n.radio.self := by
    cases n.arrival op <;> rfl
  exact (op.apply_recalls n).self.trans kept

end CoapNode
