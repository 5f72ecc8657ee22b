import CoapNode.Service
import CoapNode.Proofs.Packet.RoundTrip
/-! What a radio can do besides taking messages out of its history and repeating them. Every
datagram it offers is recorded, and every confirmable message it gets through enters the
history at its end, together with one event. Handlers and services do nothing else. -/
namespace CoapNode

def TimerEvent.retransmits? : TimerEvent → Option MessageId
  | .retransmit id => some id
  | .maxAge _ => none

/-- The first transmission of a confirmable message, taken by the network. -/
def Transmission.enters (t : Transmission) : Bool :=
  t.activity == .sending t.packet.id && t.packet.kind == .confirmable && t.refusal.isNone

/-- Its bytes are its message, and any buffer of a datagram's size has room for them. -/
structure Transmission.Plain (t : Transmission) : Prop where
  bytes : t.bytes = t.packet.datagram
  fits : t.packet.serializedLength ≤ datagramBuffer

/-- The peer and the token of a message that a service was told had expired. -/
def JournalEntry.expired? : JournalEntry → Option (NodeId × ShortBytes)
  | .expired peer token => some (peer, token)
  | _ => none

def Action.asked? : Action → Option TimerEvent
  | .schedule _ event => some event
  | _ => none

def JournalEntry.asked? : JournalEntry → Option TimerEvent
  | .acted a _ _ _ => a.asked?
  | _ => none

theorem Action.perform_journal (a : Action) (n : Node) (m : Received) :
    (a.perform n m).1.journal = n.journal := by
  cases a with
  | acknowledge =>
    simp only [perform]
    generalize n.radio.acknowledge m = done
    rfl
  | echoPath =>
    simp only [perform]
    split <;> rfl
  | _ => rfl

theorem Action.performAll_cons (a : Action) (rest : List Action) (n : Node) (m : Received) :
    performAll (a :: rest) n m = performAll rest
      ((a.perform n m).1.record (.acted a (a.perform n m).2.2 (a.perform n m).2.1.acknowledged
        (a.perform n m).2.1.answered)) (a.perform n m).2.1 := rfl

theorem Node.written_trans {n n' n'' : Node} (wrote : n.journal <+: n'.journal)
    (wrote' : n'.journal <+: n''.journal) : n''.journal.drop n.journal.length =
      n'.journal.drop n.journal.length ++ n''.journal.drop n'.journal.length := by
  obtain ⟨entries, journal⟩ := wrote
  obtain ⟨entries', journal'⟩ := wrote'
  rw [← journal', List.drop_left, ← journal, List.drop_left, List.append_assoc, List.drop_left]

def Node.askedSince (n' n : Node) : List TimerEvent :=
  (n'.journal.drop n.journal.length).filterMap (·.asked?)

theorem Action.acted_asked (a : Action) (n : Node) (m : Received) (acknowledged answered : Bool) :
    ((a.perform n m).1.record (.acted a (a.perform n m).2.2 acknowledged answered)).askedSince n =
      a.asked?.toList := by
  simp only [Node.askedSince, Node.record, a.perform_journal, List.drop_left]
  cases asked : a.asked? <;> simp [JournalEntry.asked?, asked]

namespace Radio

def retransmits (r : Radio) : List MessageId := r.scheduled.filterMap fun e => e.event.retransmits?

/-- The second radio is the first after these transmissions, some of which entered. -/
structure Extends (r s : Radio) (offered : List Transmission) (entered : List Unacknowledged) :
    Prop where
  config : s.config = r.config
  self : s.self = r.self
  transmissions : s.transmissions = r.transmissions ++ offered
  unacknowledged : s.unacknowledged = r.unacknowledged ++ entered
  retransmits : s.retransmits = r.retransmits ++ entered.map (·.packet.id)
  opening : (entered.map fun e => (e.peer, e.packet)) =
    (offered.filter (·.enters)).map fun t => (t.peer, t.packet)
  first : ∀ e ∈ entered, e.backoff.attempts = 1 ∧ e.backoff.maxAttempts = r.config.maxAttempts
  plain : ∀ t ∈ offered, t.Plain ∧ ∀ id, t.activity ≠ .retransmitting id

/-- Delays are drawn from a range that is not empty. -/
def Ordered (r : Radio) : Prop := r.config.strategy.least ≤ r.config.strategy.greatest

/-- Confirmable messages are offered only as what they are. -/
def Calm (offered : List Transmission) : Prop :=
  ∀ t ∈ offered, t.packet.kind = .confirmable → t.activity = .sending t.packet.id

def Grows (r s : Radio) : Prop :=
  r.Ordered → ∃ offered entered, r.Extends s offered entered ∧ Calm offered

variable {r s t : Radio}

theorem Extends.trans {offered offered' : List Transmission}
    {entered entered' : List Unacknowledged}
    (h : r.Extends s offered entered) (h' : s.Extends t offered' entered') :
    r.Extends t (offered ++ offered') (entered ++ entered') where
  config := by rw [h'.config, h.config]
  self := by rw [h'.self, h.self]
  transmissions := by rw [h'.transmissions, h.transmissions, List.append_assoc]
  unacknowledged := by rw [h'.unacknowledged, h.unacknowledged, List.append_assoc]
  retransmits := by rw [h'.retransmits, h.retransmits, List.map_append, List.append_assoc]
  opening := by
    rw [List.map_append, List.filter_append, List.map_append, h.opening, h'.opening]
  first := fun e member => by
    rcases List.mem_append.mp member with old | new
    · exact h.first e old
    · rw [← h.config]
      exact h'.first e new
  plain := fun x member => by
    rcases List.mem_append.mp member with old | new
    · exact h.plain x old
    · exact h'.plain x new

/-- A change that neither offers a datagram nor touches the history or its events. -/
structure Quiet (r s : Radio) : Prop where
  config : s.config = r.config
  self : s.self = r.self
  transmissions : s.transmissions = r.transmissions
  unacknowledged : s.unacknowledged = r.unacknowledged
  retransmits : s.retransmits = r.retransmits

theorem Quiet.refl (r : Radio) : r.Quiet r := ⟨rfl, rfl, rfl, rfl, rfl⟩

theorem Quiet.trans (h : r.Quiet s) (h' : s.Quiet t) : r.Quiet t :=
  ⟨h'.config.trans h.config, h'.self.trans h.self, h'.transmissions.trans h.transmissions,
    h'.unacknowledged.trans h.unacknowledged, h'.retransmits.trans h.retransmits⟩

theorem Quiet.extends (h : r.Quiet s) : r.Extends s [] [] where
  config := h.config
  self := h.self
  transmissions := by rw [h.transmissions, List.append_nil]
  unacknowledged := by rw [h.unacknowledged, List.append_nil]
  retransmits := by rw [h.retransmits, List.map_nil, List.append_nil]
  opening := rfl
  first := by simp
  plain := by simp

theorem Quiet.grows (h : r.Quiet s) : r.Grows s := fun _ => ⟨[], [], h.extends, by simp [Calm]⟩

theorem Grows.refl (r : Radio) : r.Grows r := (Quiet.refl r).grows

theorem Ordered.of_config (h : r.Ordered) (config : s.config = r.config) : s.Ordered := by
  unfold Ordered
  rw [config]
  exact h

theorem Grows.trans (h : r.Grows s) (h' : s.Grows t) : r.Grows t := by
  intro ordered
  obtain ⟨offered, entered, first, calm⟩ := h ordered
  obtain ⟨offered', entered', second, calm'⟩ := h' (ordered.of_config first.config)
  exact ⟨_, _, first.trans second, fun x member => (List.mem_append.mp member).elim (calm x)
    (calm' x)⟩

/-! ## Quiet operations -/

theorem note_quiet (r : Radio) (severity : Severity) (text : String) :
    r.Quiet (r.note severity text) := ⟨rfl, rfl, rfl, rfl, rfl⟩

theorem schedule_retransmits (r : Radio) (after : Nat) (event : TimerEvent) :
    (r.schedule after event).retransmits = r.retransmits ++ event.retransmits?.toList := by
  simp only [retransmits, schedule, List.filterMap_append, List.filterMap_cons,
    List.filterMap_nil]
  cases event.retransmits? <;> rfl

theorem schedule_quiet (r : Radio) (after : Nat) (id : RegistrationId) :
    r.Quiet (r.schedule after (.maxAge id)) :=
  ⟨rfl, rfl, rfl, rfl, by rw [schedule_retransmits]; exact List.append_nil _⟩

theorem register_quiet (r : Radio) (path : String) : r.Quiet (r.register path).1 := by
  unfold register
  split
  · exact Quiet.refl r
  · split
    · exact note_quiet _ _ _
    · exact ⟨rfl, rfl, rfl, rfl, rfl⟩

theorem unregister_quiet (r : Radio) (id : RegistrationId) : r.Quiet (r.unregister id).1 :=
  ⟨rfl, rfl, rfl, rfl, rfl⟩

theorem drawId_quiet (r : Radio) : r.Quiet r.drawId.1 := ⟨rfl, rfl, rfl, rfl, rfl⟩

theorem drawToken_quiet (r : Radio) : r.Quiet r.drawToken.1 := ⟨rfl, rfl, rfl, rfl, rfl⟩

theorem storeResponse_quiet (r : Radio) (peer : NodeId) (id : MessageId) (response : Message) :
    r.Quiet (r.storeResponse peer id response) := by
  unfold storeResponse
  split
  · exact Quiet.refl r
  · exact ⟨rfl, rfl, rfl, rfl, rfl⟩

theorem addressResponse_quiet (r : Radio) (m : Received) (response : Message) :
    r.Quiet (r.addressResponse m response).1 := by
  unfold addressResponse
  split
  · exact Quiet.refl r
  · exact drawId_quiet r
  · exact drawId_quiet r

/-! ## Sending -/

structure Offers (r s : Radio) (t : Transmission) : Prop where
  config : s.config = r.config
  self : s.self = r.self
  transmissions : s.transmissions = r.transmissions ++ [t]
  unacknowledged : s.unacknowledged = r.unacknowledged
  retransmits : s.retransmits = r.retransmits

/-- A message is offered as the datagram it is, unless it does not fit one. -/
theorem transmit_cases (r : Radio) (peer : NodeId) (packet : Message) (activity : Activity) :
    (datagramBuffer < packet.serializedLength ∧ (r.transmit peer packet activity).1 = r ∧
        ∃ e, (r.transmit peer packet activity).2 = .error e) ∨
      ∃ refusal, r.Offers (r.transmit peer packet activity).1
          ⟨peer, packet, packet.datagram, activity, refusal⟩ ∧
        (packet.serializedLength ≤ datagramBuffer) ∧
        ((r.transmit peer packet activity).2 = .ok () ↔ refusal = none) := by
  unfold transmit
  split
  · next e unfit =>
    unfold Packet.serialize at unfit
    split at unfit
    · cases unfit
    · next long => exact .inl ⟨by simpa using long, rfl, _, rfl⟩
  · next buffer length fit =>
    have whole : buffer.take length = packet.datagram ∧
        packet.serializedLength ≤ datagramBuffer := by
      unfold Packet.serialize at fit
      split at fit
      · next short =>
        cases fit
        exact ⟨by rw [← packet.datagram_length, List.take_left], by simpa using short⟩
      · cases fit
    obtain ⟨bytes, fits⟩ := whole
    right
    simp only [bytes]
    generalize (r.note .trace ("-> " ++ toString peer ++ " " ++ packet.summary)).network.send peer
      packet.datagram = outcome
    obtain ⟨network, refusal⟩ := outcome
    refine ⟨refusal, ?_, fits, ?_⟩
    · cases refusal <;> exact ⟨rfl, rfl, rfl, rfl, rfl⟩
    · cases refusal <;> simp

theorem Offers.extends {x : Transmission} (h : r.Offers s x) (whole : x.Plain)
    (outside : x.enters = false) (plain : ∀ id, x.activity ≠ .retransmitting id) :
    r.Extends s [x] [] where
  config := h.config
  self := h.self
  transmissions := h.transmissions
  unacknowledged := by rw [h.unacknowledged, List.append_nil]
  retransmits := by rw [h.retransmits, List.map_nil, List.append_nil]
  opening := by rw [List.filter_cons_of_neg (by simp [outside])]; rfl
  first := by simp
  plain := fun y member => by
    rw [List.mem_singleton.mp member]
    exact ⟨whole, plain⟩

theorem transmit_grows (r : Radio) (peer : NodeId) (packet : Message) (activity : Activity)
    (kind : packet.kind ≠ .confirmable) (plain : ∀ id, activity ≠ .retransmitting id) :
    r.Grows (r.transmit peer packet activity).1 := by
  rcases r.transmit_cases peer packet activity with ⟨-, same, -⟩ | ⟨refusal, offers, fits, -⟩
  · rw [same]
    exact Grows.refl r
  · refine fun _ => ⟨_, _, offers.extends ⟨rfl, fits⟩ (by simp [Transmission.enters, kind]) plain,
      fun x member confirmable => ?_⟩
    rw [List.mem_singleton.mp member] at confirmable
    exact absurd confirmable kind

theorem start?_isSome {s : Strategy} (maxAttempts : Nat) (random : Random)
    (ordered : s.least ≤ s.greatest) : ∃ backoff random',
      Backoff.start? s maxAttempts random = some (backoff, random') ∧
        backoff.attempts = 1 ∧ backoff.maxAttempts = maxAttempts := by
  unfold Backoff.start?
  split
  · have drawn : ∃ x, random.drawRange? s.least s.greatest = some x := by
      unfold Random.drawRange?
      rw [if_neg (Nat.not_lt_of_le ordered)]
      simp only
      split <;> exact ⟨_, rfl⟩
    obtain ⟨⟨initial, random'⟩, drawn⟩ := drawn
    rw [drawn]
    exact ⟨_, _, rfl, rfl, rfl⟩
  · exact ⟨_, _, rfl, rfl, rfl⟩

theorem track_extends {x : Transmission} (ordered : r.Ordered) (h : r.Offers s x)
    (whole : x.Plain) (activity : x.activity = .sending x.packet.id)
    (kind : x.packet.kind = .confirmable) (taken : x.refusal = none) :
    ∃ entered, r.Extends (s.track x.peer x.packet) [x] entered := by
  have again : s.config.strategy.least ≤ s.config.strategy.greatest := by
    rw [h.config]
    exact ordered
  obtain ⟨backoff, random, started, attempts, maxAttempts⟩ :=
    start?_isSome s.config.maxAttempts s.random again
  refine ⟨[⟨x.peer, x.packet, backoff⟩], ?_⟩
  have enters : x.enters = true := by simp [Transmission.enters, activity, kind, taken]
  simp only [track, started]
  exact {
    config := h.config
    self := h.self
    transmissions := h.transmissions
    unacknowledged := by
      simp only [schedule]
      rw [h.unacknowledged]
    retransmits := by
      have scheduled := schedule_retransmits { s with random } backoff.delay
        (.retransmit x.packet.id)
      rw [show ({ s with random } : Radio).retransmits = s.retransmits from rfl,
        h.retransmits] at scheduled
      exact scheduled
    opening := by rw [List.filter_cons_of_pos enters]; rfl
    first := fun e member => by
      rw [List.mem_singleton.mp member, maxAttempts, h.config]
      exact ⟨attempts, rfl⟩
    plain := fun y member => by
      rw [List.mem_singleton.mp member, activity]
      exact ⟨whole, by simp⟩ }

theorem send_grows (r : Radio) (peer : NodeId) (packet : Message) :
    r.Grows (r.send peer packet).1 := by
  unfold send
  simp only
  split
  · exact (note_quiet _ _ _).grows
  have cases := r.transmit_cases peer packet (.sending packet.id)
  have plain := r.transmit_grows peer packet (.sending packet.id)
  generalize r.transmit peer packet (.sending packet.id) = out at *
  obtain ⟨s, result⟩ := out
  cases confirmable : packet.kind == .confirmable with
  | false =>
    have grows := plain (by simpa using confirmable) (by simp)
    cases result <;> exact grows
  | true =>
    have kind : packet.kind = .confirmable := by simpa using confirmable
    rcases cases with ⟨-, same, e, rfl⟩ | ⟨refusal, offers, fits, ok⟩
    · change s = r at same
      change r.Grows s
      rw [same]
      exact Grows.refl r
    · intro ordered
      cases result with
      | error e =>
        obtain ⟨code, rfl⟩ : ∃ code, refusal = some code := by
          cases refusal with
          | none => cases ok.mpr rfl
          | some code => exact ⟨code, rfl⟩
        exact ⟨_, _, offers.extends ⟨rfl, fits⟩ (by simp [Transmission.enters]) (by simp),
          by simp [Calm]⟩
      | ok _ =>
        obtain ⟨entered, h⟩ := track_extends ordered offers ⟨rfl, fits⟩ rfl kind (ok.mp rfl)
        exact ⟨_, entered, h, by simp [Calm]⟩

theorem sendFresh_grows (r : Radio) (peer : NodeId) (packet : Message) :
    r.Grows (r.sendFresh peer packet).1 := by
  have grows := r.drawId_quiet.grows.trans
    (r.drawId.1.send_grows peer { packet with id := r.drawId.2 })
  unfold sendFresh
  simp only
  split
  · next done => rw [done] at grows; exact grows
  · next failed => rw [failed] at grows; exact grows

theorem sendRequest_grows (r : Radio) (peer : NodeId) (packet : Message) :
    r.Grows (r.sendRequest peer packet).1 := by
  unfold sendRequest
  simp only
  split
  · exact r.drawToken_quiet.grows
  · next packet' _ =>
    have grows := r.drawToken_quiet.grows.trans (r.drawToken.1.sendFresh_grows peer packet')
    split
    · next done => rw [done] at grows; exact grows
    · next failed => rw [failed] at grows; exact grows

theorem dispatch_grows (r : Radio) (peer : NodeId) (mode : SendMode) (packet : Message) :
    r.Grows (r.dispatch peer mode packet).1 := by
  cases mode with
  | asIs => exact r.send_grows peer packet
  | freshId => exact r.sendFresh_grows peer packet
  | request => exact r.sendRequest_grows peer packet

theorem respond_grows (r : Radio) (m : Received) (response : Message) :
    r.Grows (r.respond m response).1 := by
  unfold respond
  split
  · exact Grows.refl r
  · next response' _ =>
    have grows := (r.addressResponse_quiet m response').grows.trans
      ((r.addressResponse m response').1.send_grows m.peer (r.addressResponse m response').2)
    simp only
    split
    · next failed => rw [failed] at grows; exact grows
    · next done =>
      rw [done] at grows
      exact grows.trans (storeResponse_quiet _ _ _ _).grows

theorem acknowledge_grows (r : Radio) (m : Received) : r.Grows (r.acknowledge m).1 := by
  have grows := r.transmit_grows m.peer (emptyMessage .acknowledgement m.packet.id)
    (.sending m.packet.id) (by simp [emptyMessage]) (by simp)
  unfold acknowledge
  split
  · next done => rw [done] at grows; exact grows
  · next failed => rw [failed] at grows; exact grows

end Radio
end CoapNode
