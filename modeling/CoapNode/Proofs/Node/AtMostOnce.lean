import CoapNode.Proofs.Node.Remembering
/-! Messages are processed at most once while they are remembered. The history of received
messages is a queue of fixed length, which new messages enter before anything is done with
them; whatever is in it is answered without asking a service. -/
namespace CoapNode

namespace Radio

/-! ## Duplicates -/

theorem emptyMessage_fits (kind : MessageKind) (id : MessageId) :
    (emptyMessage kind id).serializedLength ≤ datagramBuffer := by
  have short : (emptyMessage .confirmable ⟨0⟩).serializedLength ≤ datagramBuffer := by decide
  exact short

theorem receiveDuplicate_confirmable (r : Radio) (peer : NodeId) {packet : Message}
    (stored : Option Message) (kind : packet.kind = .confirmable)
    (fits : ∀ response ∈ stored, response.serializedLength ≤ datagramBuffer) :
    let answer := stored.getD (emptyMessage .acknowledgement packet.id)
    ∃ s result, r.receiveDuplicate peer packet stored = (s, result) ∧
      r.Offered s [⟨peer, answer, answer.datagram, .receiving, r.refusal⟩] ∧
      (r.refusal = none ∧ result = .ok .duplicate ∨
        ∃ code, r.refusal = some code ∧ result = .error ⟨.transport code, .receiving⟩) := by
  intro answer
  have room : answer.serializedLength ≤ datagramBuffer := by
    cases stored with
    | none => exact emptyMessage_fits _ _
    | some response => exact fits response rfl
  have noted := r.note_offered .debug ("duplicate " ++ packet.id.inspect ++ " from " ++
    toString peer)
  have same : (r.note .debug ("duplicate " ++ packet.id.inspect ++ " from " ++
    toString peer)).refusal = r.refusal := rfl
  simp only [receiveDuplicate, if_pos kind]
  generalize r.note .debug ("duplicate " ++ packet.id.inspect ++ " from " ++ toString peer) = t
    at noted same ⊢
  obtain ⟨s, sent, offered⟩ := t.transmit_of_fits peer .receiving room
  rw [same] at sent offered
  rw [show stored.getD (emptyMessage .acknowledgement packet.id) = answer from rfl, sent]
  cases refusal : r.refusal with
  | none =>
    rw [refusal] at offered
    exact ⟨s, _, rfl, noted.trans offered, .inl ⟨rfl, rfl⟩⟩
  | some code =>
    rw [refusal] at offered
    exact ⟨s, _, rfl, noted.trans offered, .inr ⟨code, rfl, rfl⟩⟩

theorem receiveDuplicate_other (r : Radio) (peer : NodeId) {packet : Message}
    (stored : Option Message) (kind : packet.kind ≠ .confirmable) :
    ∃ s, r.receiveDuplicate peer packet stored = (s, .ok .duplicate) ∧ r.Offered s [] := by
  simp only [receiveDuplicate, if_neg kind]
  exact ⟨_, rfl, r.note_offered _ _⟩

end Radio

namespace Node

/-- The datagram is settled without a service: whichever are lent, they come back as they were. -/
def Settles (n : Node) (peer : NodeId) (bytes : List UInt8) (n' : Node)
    (result : Except RuntimeError Inbound) : Prop :=
  ∀ services, n.receive peer bytes services = (n', services, result)

/-- What comes of the datagram depends on the services lent. -/
def Asks (n : Node) (peer : NodeId) (bytes : List UInt8) : Prop :=
  ¬ ∃ n' result, n.Settles peer bytes n' result

/-- The datagram is settled as a duplicate. At most one datagram was offered to the network, none
if the duplicate was not confirmable, and but for the network and the log nothing has changed. -/
structure Suppresses (n : Node) (peer : NodeId) (bytes : List UInt8) (kind : MessageKind)
    (radio : Radio) (offered : List Transmission) (result : Except RuntimeError Inbound) :
    Prop where
  settles : n.Settles peer bytes { n with radio } result
  radio : n.radio.Offered radio offered
  few : offered.length ≤ 1
  silent : kind = .nonConfirmable → offered = []
  result : result = .ok .duplicate ∨
    ∃ code, n.radio.refusal = some code ∧ result = .error ⟨.transport code, .receiving⟩

variable {n : Node} {peer : NodeId} {bytes : List UInt8} {packet : Message}

theorem receive_known (other : peer ≠ n.radio.self)
    (read : Packet.decode 128 bytes = .ok packet) (kind : packet.kind.original = true)
    (known : (peer, packet.id) ∈ n.radio.recent) :
    ∃ seen ∈ n.radio.remembered, seen.key = (peer, packet.id) ∧
      n.Settles peer bytes
        { n with
          radio := ((n.heard peer packet).radio.receiveDuplicate peer packet seen.response).1 }
        ((n.heard peer packet).radio.receiveDuplicate peer packet seen.response).2 := by
  cases found : n.radio.remembered.find? fun s => s.peer == peer && s.id == packet.id with
  | none => exact absurd known ((find?_known_eq_none _ _ _).mp found)
  | some seen =>
    have same := List.find?_some found
    simp only [Bool.and_eq_true, beq_iff_eq] at same
    refine ⟨seen, List.mem_of_find?_eq_some found, by simp [Remembered.key, same], ?_⟩
    intro services
    have found' : (n.heard peer packet).radio.remembered.find?
        (fun s => s.peer == peer && s.id == packet.id) = some seen := found
    rw [(n.receive_of_decode services other read).2 (packet.kind.original_eq_true.mp kind)]
    simp only [receiveOriginal, found']
    rfl

theorem suppresses_known (mindful : n.radio.Mindful) (other : peer ≠ n.radio.self)
    (read : Packet.decode 128 bytes = .ok packet) (kind : packet.kind.original = true)
    (known : (peer, packet.id) ∈ n.radio.recent) :
    ∃ radio offered result, n.Suppresses peer bytes packet.kind radio offered result := by
  have heard := n.radio.note_offered .trace ("<- " ++ toString peer ++ " " ++ packet.summary)
  obtain ⟨seen, member, -, settled⟩ := receive_known other read kind known
  by_cases confirmable : packet.kind = .confirmable
  · obtain ⟨s, result, done, offered, came⟩ :=
      (n.heard peer packet).radio.receiveDuplicate_confirmable peer seen.response confirmable
        (mindful.answerable seen member)
    rw [done] at settled
    refine ⟨s, _, result, settled, heard.trans offered, by simp, by simp [confirmable], ?_⟩
    rcases came with ⟨-, done⟩ | failed
    · exact .inl done
    · exact .inr failed
  · obtain ⟨s, done, offered⟩ :=
      (n.heard peer packet).radio.receiveDuplicate_other peer seen.response confirmable
    rw [done] at settled
    exact ⟨s, _, _, settled, heard.trans offered, by simp, by simp, .inl rfl⟩

end Node

/-! ## Runs -/

theorem rtake_append_cons {α : Type} {older newer : List α} {size : Nat} (x : α)
    (short : newer.length < size) :
    ∃ older', (older ++ x :: newer).rtake size = older' ++ x :: newer := by
  refine ⟨older.drop (older.length + (newer.length + 1) - size), ?_⟩
  simp only [List.rtake, List.length_append, List.length_cons]
  apply List.drop_append_of_le_length
  omega

theorem rtake_rtake_append {α : Type} (older newer : List α) (size : Nat) :
    (older.rtake size ++ newer).rtake size = (older ++ newer).rtake size := by
  simp only [List.rtake_eq_reverse_take_reverse, List.reverse_append, List.reverse_reverse,
    List.take_append, List.take_take, List.length_reverse]
  congr 3
  omega

theorem Radio.start_mindful (self : NodeId) (config : Config) (clock : Clock) :
    (Radio.start self config clock).Mindful where
  bounded := Nat.zero_le _
  distinct := List.nodup_nil
  answerable := by
    intro e member
    cases member

namespace Run

variable {s : Run} {op : Operation}

/-- The new messages that operations bring, the first first. -/
def arrivals (s : Run) : List Operation → List (NodeId × MessageId)
  | [] => []
  | op :: rest => (s.node.arrival op).toList ++ (s.step op).arrivals rest

theorem arrival_unknown {key : NodeId × MessageId} (new : key ∈ s.node.arrival op) :
    key ∉ s.node.radio.recent := by
  cases op with
  | receive peer bytes services => exact (Node.new?_eq_some.mp new).2
  | _ => cases new

theorem mindful_step (mindful : s.node.radio.Mindful) (op : Operation) :
    (s.step op).node.radio.Mindful :=
  (mindful.enrol fun _ new => arrival_unknown new).recalls (op.apply_recalls s.node)

theorem recent_step (mindful : s.node.radio.Mindful) (op : Operation) :
    (s.step op).node.radio.recent =
      (s.node.radio.recent ++ (s.node.arrival op).toList).rtake receivedHistory := by
  rw [← Radio.enrol_recent mindful.bounded]
  exact (op.apply_recalls s.node).recent

theorem mindful_after (mindful : s.node.radio.Mindful) (ops : List Operation) :
    (s.after ops).node.radio.Mindful := by
  induction ops generalizing s with
  | nil => exact mindful
  | cons op rest ih => exact ih (mindful_step mindful op)

theorem recent_after (mindful : s.node.radio.Mindful) (ops : List Operation) :
    (s.after ops).node.radio.recent =
      (s.node.radio.recent ++ s.arrivals ops).rtake receivedHistory := by
  induction ops generalizing s with
  | nil =>
    have whole := Nat.sub_eq_zero_of_le mindful.bounded
    simp [arrivals, after, List.rtake, whole]
  | cons op rest ih =>
    have later := ih (mindful_step mindful op)
    rw [recent_step mindful op, rtake_rtake_append, List.append_assoc] at later
    exact later

/-- While fewer than so many others came after it, a message is remembered, and so does not come
as a new one. -/
theorem not_mem_arrivals (mindful : s.node.radio.Mindful) {older newer : List (NodeId × MessageId)}
    {key : NodeId × MessageId} (known : s.node.radio.recent = older ++ key :: newer)
    (ops : List Operation) : key ∉ (s.arrivals ops).take (receivedHistory - newer.length) := by
  induction ops generalizing s older newer with
  | nil => simp [arrivals]
  | cons op rest ih =>
    have next := recent_step mindful op
    have later := mindful_step mindful op
    have short : newer.length < receivedHistory := by
      have bounded := mindful.bounded
      simp only [known, List.length_append, List.length_cons] at bounded
      omega
    cases new : s.node.arrival op with
    | none =>
      obtain ⟨older', kept⟩ := rtake_append_cons key short
      rw [new, Option.toList_none, List.append_nil, known, kept] at next
      simpa [arrivals, new] using ih later next
    | some other =>
      have different : key ≠ other := by
        rintro rfl
        exact arrival_unknown new (by simp [known])
      obtain ⟨left, excess⟩ : ∃ left, receivedHistory - newer.length = left + 1 :=
        ⟨receivedHistory - newer.length - 1, by omega⟩
      simp only [arrivals, new, Option.toList_some, List.singleton_append, excess,
        List.take_succ_cons, List.mem_cons, not_or]
      refine ⟨different, ?_⟩
      by_cases full : newer.length + 1 < receivedHistory
      · have short' : (newer ++ [other]).length < receivedHistory := by simpa using full
        obtain ⟨older', kept⟩ := rtake_append_cons key short'
        rw [new, Option.toList_some, known, List.append_assoc, List.cons_append, kept] at next
        have fewer : left = receivedHistory - (newer ++ [other]).length := by
          simp only [List.length_append, List.length_singleton]
          omega
        rw [fewer]
        exact ih later next
      · have none : left = 0 := by omega
        simp [none]

theorem self_after (s : Run) (ops : List Operation) :
    (s.after ops).node.radio.self = s.node.radio.self := by
  induction ops generalizing s with
  | nil => rfl
  | cons op rest ih => exact (ih (s.step op)).trans (op.apply_self s.node)

theorem unknown_of_asks (mindful : s.node.radio.Mindful) {peer : NodeId} {bytes : List UInt8}
    {key : NodeId × MessageId} (original : s.node.original? peer bytes = some key)
    (asks : s.node.Asks peer bytes) : key ∉ s.node.radio.recent := by
  obtain ⟨packet, read, other, kind, rfl⟩ := Node.original?_eq_some.mp original
  intro known
  obtain ⟨radio, _, result, suppresses⟩ := Node.suppresses_known mindful other read kind known
  exact asks ⟨_, result, suppresses.settles⟩

/-- The messages remembered are the last new ones, each once. One that is remembered is settled
as a duplicate; and when services had a part in what came of a message twice, then that many other
new messages came in between. -/
theorem processed_at_most_once (self : NodeId) (config : Config) (clock : Clock)
    (ops : List Operation) :
    let first := start self config clock
    let s := first.after ops
    s.node.radio.recent.Nodup ∧
    s.node.radio.recent = (first.arrivals ops).rtake receivedHistory ∧
    (∀ peer bytes packet, peer ≠ self → Packet.decode 128 bytes = .ok packet →
      packet.kind.original = true → (peer, packet.id) ∈ s.node.radio.recent →
        ∃ radio offered result, s.node.Suppresses peer bytes packet.kind radio offered result) ∧
    ∀ before peer bytes services between again key,
      ops = before ++ .receive peer bytes services :: between →
      (first.after before).node.original? peer bytes = some key →
      (first.after before).node.Asks peer bytes →
      s.node.original? peer again = some key → s.node.Asks peer again →
        let others := ((first.after before).step (.receive peer bytes services)).arrivals between
        receivedHistory ≤ others.length ∧ key ∉ others.take receivedHistory := by
  intro first s
  have fresh : first.node.radio.Mindful := Radio.start_mindful self config clock
  have mindful : s.node.radio.Mindful := mindful_after fresh ops
  have own : s.node.radio.self = self := self_after first ops
  refine ⟨mindful.distinct, recent_after fresh ops, ?_, ?_⟩
  · intro peer bytes packet other read kind known
    exact Node.suppresses_known mindful (own ▸ other) read kind known
  · intro before peer bytes services between again key split original asks original' asks' others
    have early : (first.after before).node.radio.Mindful := mindful_after fresh before
    have new : (first.after before).node.arrival (.receive peer bytes services) = some key :=
      Node.new?_eq_some.mpr ⟨original, unknown_of_asks early original asks⟩
    have entered := recent_step early (.receive peer bytes services)
    have room : ([] : List (NodeId × MessageId)).length < receivedHistory := by decide
    obtain ⟨older, kept⟩ := rtake_append_cons key room
    rw [new, Option.toList_some, kept] at entered
    have stepped := mindful_step early (.receive peer bytes services)
    refine ⟨?_, by simpa using not_mem_arrivals stepped entered between⟩
    by_contra few
    obtain ⟨older', known⟩ := rtake_append_cons key (Nat.lt_of_not_le few)
    have whole : s = ((first.after before).step (.receive peer bytes services)).after between := by
      simp [s, split, after]
    have later := recent_after stepped between
    rw [← whole, entered, List.append_assoc, List.singleton_append, known] at later
    apply unknown_of_asks mindful original' asks'
    simp [later]

theorem asks_of_journal {n : Node} {peer : NodeId} {bytes : List UInt8}
    (services services' : List Service) (differ : (n.receive peer bytes services).1.journal.length ≠
      (n.receive peer bytes services').1.journal.length) : n.Asks peer bytes := by
  rintro ⟨_, _, settles⟩
  rw [settles, settles] at differ
  exact differ rfl

/-- Somebody who takes every request while the first registration is current. -/
def greedy : List Service := [.probe ⟨some ⟨0⟩, true, false, false, .fixed []⟩]

def request : List UInt8 := [0x41, 1, 0, 9, 0x91, 0x61]

def pings (count : Nat) : List Operation :=
  (List.range count).map fun i => .receive 3 [0x40, 0, 0, UInt8.ofNat i] []

set_option maxRecDepth 10000 in
/-- After sixteen other messages the same request is offered again. -/
theorem processed_again_after_sixteen :
    let first := start 0 {} {}
    let before : List Operation := [.create (.plain "a" (.fixed []))]
    let between := pings 15 ++ [.receive 2 request greedy]
    let s := first.after (before ++ .receive 1 request greedy :: between)
    (2, ⟨9⟩) ∈ s.node.radio.recent ∧
      (∃ radio offered result, s.node.Suppresses 2 request .confirmable radio offered result) ∧
      (first.after before).node.Asks 1 request ∧ s.node.Asks 1 request ∧
      receivedHistory ≤
        (((first.after before).step (.receive 1 request greedy)).arrivals between).length := by
  intro first before between s
  obtain ⟨-, -, duplicates, twice⟩ := processed_at_most_once 0 {} {}
    (before ++ .receive 1 request greedy :: between)
  have known : (2, ⟨9⟩) ∈ s.node.radio.recent := by decide +kernel
  have once : (first.after before).node.Asks 1 request :=
    asks_of_journal greedy [] (by decide +kernel)
  have again : s.node.Asks 1 request :=
    asks_of_journal greedy [] (by decide +kernel)
  obtain ⟨packet, read, head⟩ := Node.exists_read request
    (fun p => p.kind == .confirmable && p.id == ⟨9⟩) (by decide +kernel)
  simp only [Bool.and_eq_true, beq_iff_eq] at head
  obtain ⟨kind, id⟩ := head
  refine ⟨known, ?_, once, again, ?_⟩
  · have found := duplicates 2 request packet (by decide) read (by rw [kind]; rfl) (id ▸ known)
    rwa [kind] at found
  · exact (twice before 1 request greedy between request (1, ⟨9⟩) rfl (by decide +kernel) once
      (by decide +kernel) again).1

end Run
end CoapNode
