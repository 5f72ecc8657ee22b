import CoapNode.Proofs.Radio.Exchange
/-! Sending, whichever way it is asked for. It comes to one message, which the network takes and
which is kept if it is confirmable; or else nothing has changed, apart from numbers used up, the log
and what the network was offered. -/
namespace CoapNode

namespace Radio

variable {r s t : Radio}

theorem track_of_ordered (ordered : r.Ordered) (peer : NodeId) (packet : Message) :
    ∃ backoff random, Backoff.start? r.config.strategy r.config.maxAttempts r.random =
        some (backoff, random) ∧
      r.track peer packet = { r with
        random
        scheduled := r.scheduled ++ [⟨backoff.delay, .retransmit packet.id⟩]
        unacknowledged := r.unacknowledged ++ [⟨peer, packet, backoff⟩] } := by
  obtain ⟨backoff, random, started, -⟩ := start?_isSome r.config.maxAttempts r.random ordered
  exact ⟨backoff, random, started, by simp only [track, started, schedule]⟩

def HasRoom (r : Radio) (packet : Message) : Prop :=
  packet.kind = .confirmable → r.unacknowledged.length < sentHistory

theorem not_hasRoom_iff {packet : Message} : ¬ r.HasRoom packet ↔
    packet.kind = .confirmable ∧ sentHistory ≤ r.unacknowledged.length := by
  simp only [HasRoom, Classical.not_imp, Nat.not_lt]

theorem Offered.refl (r : Radio) : r.Offered r [] := ⟨r.log, r.network.outcomes, by simp⟩

theorem send_of_full {packet : Message} (peer : NodeId) (full : ¬ r.HasRoom packet) :
    ∃ text, r.send peer packet =
      (r.note .warn text, .error ⟨.historyFull, .sending packet.id⟩) := by
  unfold send
  simp only
  rw [if_pos (by simpa using not_hasRoom_iff.mp full)]
  exact ⟨_, rfl⟩

theorem send_of_room {packet : Message} (peer : NodeId) (room : r.HasRoom packet) :
    r.send peer packet = match r.transmit peer packet (.sending packet.id) with
      | (s, .error e) => (s, .error e)
      | (s, .ok _) => (if packet.kind = .confirmable then s.track peer packet else s, .ok ()) := by
  unfold HasRoom at room
  unfold send
  simp only
  rw [if_neg (by simpa using room)]
  generalize r.transmit peer packet (.sending packet.id) = out
  obtain ⟨s, _ | _⟩ := out <;> simp only [beq_iff_eq]

theorem send_of_other {packet : Message} (peer : NodeId) (other : packet.kind ≠ .confirmable) :
    r.send peer packet = r.transmit peer packet (.sending packet.id) := by
  rw [send_of_room peer fun confirmable => absurd confirmable other]
  simp only [if_neg other]
  generalize r.transmit peer packet (.sending packet.id) = out
  obtain ⟨s, _ | _⟩ := out <;> rfl

theorem send_of_fits {packet : Message} (peer : NodeId) (room : r.HasRoom packet)
    (fits : packet.serializedLength ≤ datagramBuffer) :
    ∃ s, r.Offered s [⟨peer, packet, packet.datagram, .sending packet.id, r.refusal⟩] ∧
      r.send peer packet = match r.refusal with
        | none => (if packet.kind = .confirmable then s.track peer packet else s, .ok ())
        | some code => (s, .error ⟨.transport code, .sending packet.id⟩) := by
  obtain ⟨s, sent, offered⟩ := r.transmit_of_fits peer (.sending packet.id) fits
  refine ⟨s, offered, ?_⟩
  rw [send_of_room peer room, sent]
  cases r.refusal <;> rfl

/-! ## Nothing or one message -/

/-- Only numbers were used up: at most one id and one token. -/
def Counts (r s : Radio) : Prop :=
  ∃ nextId nextToken, s = { r with nextId, nextToken } ∧
    (nextId = r.nextId ∨ nextId = r.nextId.next) ∧
    (nextToken = r.nextToken ∨ nextToken = r.nextToken + 1)

/-- Why nothing of a message gets through, and what was offered of it in vain. -/
inductive Hinders (r : Radio) (peer : NodeId) (packet : Message) :
    Cause → List Transmission → Prop
  | full (full : ¬ r.HasRoom packet) : Hinders r peer packet .historyFull []
  | long (room : r.HasRoom packet) (long : datagramBuffer < packet.serializedLength) :
      Hinders r peer packet (.codec .noRoom) []
  | refused {code : Nat} (room : r.HasRoom packet)
      (fits : packet.serializedLength ≤ datagramBuffer) (refusal : r.refusal = some code) :
      Hinders r peer packet (.transport code)
        [⟨peer, packet, packet.datagram, .sending packet.id, some code⟩]

/-- The network has taken nothing. Only numbers were used up; what it refused and what was logged
is written down. -/
def Unsent (r s : Radio) (refused : List Transmission) : Prop :=
  ∃ nextId nextToken log outcomes, s = { r with
      nextId
      nextToken
      log
      network := ⟨outcomes, r.network.delivered⟩
      transmissions := r.transmissions ++ refused } ∧
    (nextId = r.nextId ∨ nextId = r.nextId.next) ∧
    (nextToken = r.nextToken ∨ nextToken = r.nextToken + 1)

/-- The network has taken one message. Numbers were used up for it, it is tracked if it is
confirmable, and a response may have been stored. -/
def Ships (r s : Radio) (peer : NodeId) (packet : Message) : Prop :=
  ∃ c t remembered, r.Counts c ∧
    c.Offered t [⟨peer, packet, packet.datagram, .sending packet.id, none⟩] ∧
    s = { (if packet.kind = .confirmable then t.track peer packet else t) with remembered }

/-- The network has taken exactly one message. It is kept, with the event that repeats it, exactly
if it is confirmable. -/
structure Dispatched (r s : Radio) (peer : NodeId) (packet : Message) : Prop where
  delivered : s.network.delivered = r.network.delivered ++ [⟨peer, packet.datagram⟩]
  kept : packet.kind = .confirmable → ∃ backoff,
    Backoff.start? r.config.strategy r.config.maxAttempts r.random = some (backoff, s.random) ∧
      s.unacknowledged = r.unacknowledged ++ [⟨peer, packet, backoff⟩] ∧
      s.scheduled = r.scheduled ++ [⟨backoff.delay, .retransmit packet.id⟩]
  unkept : packet.kind ≠ .confirmable → s.random = r.random ∧
    s.unacknowledged = r.unacknowledged ∧ s.scheduled = r.scheduled
  others : ∃ nextId nextToken random unacknowledged remembered network transmissions scheduled log,
    s = { r with
      nextId
      nextToken
      random
      unacknowledged
      remembered
      network
      transmissions
      scheduled
      log }

section

variable {peer : NodeId} {packet : Message} {cause : Cause} {refused : List Transmission}

theorem Counts.hinders_iff (h : r.Counts s) :
    s.Hinders peer packet cause refused ↔ r.Hinders peer packet cause refused := by
  obtain ⟨_, _, rfl, -⟩ := h
  constructor <;> rintro (full | ⟨room, long⟩ | ⟨room, fits, refusal⟩)
  · exact .full full
  · exact .long room long
  · exact .refused room fits refusal
  · exact .full full
  · exact .long room long
  · exact .refused room fits refusal

theorem Counts.unsent (h : r.Counts s) (offered : s.Offered t refused)
    (none : refused.flatMap (·.delivered) = []) : r.Unsent t refused := by
  obtain ⟨nextId, nextToken, rfl, used⟩ := h
  obtain ⟨log, outcomes, rfl⟩ := offered
  rw [none, List.append_nil]
  exact ⟨_, _, _, _, rfl, used⟩

theorem Hinders.undelivered (h : r.Hinders peer packet cause refused) :
    refused.flatMap (·.delivered) = [] := by
  cases h <;> rfl

theorem Ships.dispatched (h : r.Ships s peer packet) (ordered : r.Ordered) :
    r.Dispatched s peer packet := by
  obtain ⟨_, t, remembered, ⟨_, _, rfl, -⟩, offered, rfl⟩ := h
  have same : t.Ordered := by
    obtain ⟨log, outcomes, rfl⟩ := offered
    exact ordered
  split
  · next confirmable =>
    obtain ⟨backoff, random, started, tracked⟩ := track_of_ordered same peer packet
    rw [tracked]
    obtain ⟨log, outcomes, rfl⟩ := offered
    exact ⟨rfl, fun _ => ⟨backoff, started, rfl, rfl⟩, fun other => absurd confirmable other,
      _, _, _, _, _, _, _, _, _, rfl⟩
  · next other =>
    obtain ⟨log, outcomes, rfl⟩ := offered
    exact ⟨rfl, fun confirmable => absurd confirmable other, fun _ => ⟨rfl, rfl, rfl⟩,
      _, _, _, _, _, _, _, _, _, rfl⟩

end

/-- A message is hindered and nothing was taken, or nothing hinders it and it was taken. -/
theorem send_cases (r : Radio) (peer : NodeId) (packet : Message) :
    (∃ s cause refused, r.send peer packet = (s, .error ⟨cause, .sending packet.id⟩) ∧
        r.Hinders peer packet cause refused ∧ r.Offered s refused) ∨
      ∃ s, r.send peer packet =
          (if packet.kind = .confirmable then s.track peer packet else s, .ok ()) ∧
        (∀ cause refused, ¬ r.Hinders peer packet cause refused) ∧
        r.Offered s [⟨peer, packet, packet.datagram, .sending packet.id, none⟩] := by
  by_cases room : r.HasRoom packet
  case neg =>
    obtain ⟨text, sent⟩ := send_of_full peer room
    exact .inl ⟨_, _, _, sent, .full room, r.note_offered _ _⟩
  by_cases fits : packet.serializedLength ≤ datagramBuffer
  case neg =>
    have long := Nat.lt_of_not_le fits
    refine .inl ⟨r, _, _, ?_, .long room long, Offered.refl r⟩
    rw [send_of_room peer room, transmit_of_long peer _ long]
  obtain ⟨s, offered, sent⟩ := send_of_fits peer room fits
  cases refusal : r.refusal with
  | some code =>
    rw [refusal] at sent offered
    exact .inl ⟨s, _, _, sent, .refused room fits refusal, offered⟩
  | none =>
    rw [refusal] at sent offered
    refine .inr ⟨s, sent, ?_, offered⟩
    rintro cause refused (full | ⟨-, long⟩ | ⟨-, -, refused⟩)
    · exact full room
    · exact Nat.not_lt_of_le fits long
    · rw [refusal] at refused
      cases refused

end Radio

/-! ## The ways to send -/

/-- What a radio is asked to send, be it of its own or to the sender of a message. -/
inductive Sending where
  | own (peer : NodeId) (mode : SendMode) (packet : Message)
  | respond (response : Message)
  | reply (code : Code) (payload : List UInt8)
  | acknowledge

namespace Sending

def run (x : Sending) (r : Radio) (m : Received) : Radio × Received × Except RuntimeError Unit :=
  match x with
  | own peer mode packet =>
    let (r, result) := r.dispatch peer mode packet
    (r, m, result.map fun _ => ())
  | respond response => r.respond m response
  | reply code payload => r.reply m code payload
  | acknowledge => r.acknowledge m

def peer (x : Sending) (m : Received) : NodeId :=
  match x with
  | own peer .. => peer
  | _ => m.peer

def response (r : Radio) (m : Received) (p : Message) : Except CodecError Message :=
  (p.setToken m.packet.token).map fun p => (r.addressResponse m p).2

def message (x : Sending) (r : Radio) (m : Received) : Except CodecError Message :=
  match x with
  | own _ .asIs p => .ok p
  | own _ .freshId p => .ok { p with id := r.nextId }
  | own _ .request p => (p.setToken r.drawToken.2).map fun p => { p with id := r.nextId }
  | respond p => response r m p
  | reply code payload => ({ Packet.fresh 128 with code }.setPayload payload).bind (response r m)
  | acknowledge => .ok (emptyMessage .acknowledgement m.packet.id)

/-- Why nothing is sent: there is no message, or nothing of it gets through. -/
inductive Fails (x : Sending) (r : Radio) (m : Received) : Cause → List Transmission → Prop
  | unbuilt {e : CodecError} (unbuilt : x.message r m = .error e) : Fails x r m (.codec e) []
  | hindered {p : Message} {cause : Cause} {refused : List Transmission}
      (built : x.message r m = .ok p) (hindered : r.Hinders (x.peer m) p cause refused) :
      Fails x r m cause refused

/-- What comes of it. A failure leaves the radio as it was, numbers and the log apart, and the
message as it was; otherwise exactly one message was taken. -/
inductive Ends (x : Sending) (r : Radio) (m : Received) :
    Radio × Received × Except RuntimeError Unit → Prop
  | failed {s : Radio} {e : RuntimeError} {refused : List Transmission}
      (fails : x.Fails r m e.cause refused) (unsent : r.Unsent s refused) :
      Ends x r m (s, m, .error e)
  | sent {s : Radio} {m' : Received} {p : Message}
      (works : ∀ cause refused, ¬ x.Fails r m cause refused)
      (built : x.message r m = .ok p) (dispatched : r.Dispatched s (x.peer m) p) :
      Ends x r m (s, m', .ok ())

/-- Numbers are used up, and then the message is sent if there is one. What was received is noted
only when it got through. -/
inductive Reduces (x : Sending) (r c : Radio) (m : Received) : Prop
  | unbuilt {e : CodecError} (built : x.message r m = .error e)
      (run : ∃ activity, x.run r m = (c, m, .error ⟨.codec e, activity⟩))
  | failed {p : Message} {s : Radio} {e : RuntimeError} (built : x.message r m = .ok p)
      (sent : c.send (x.peer m) p = (s, .error e)) (run : x.run r m = (s, m, .error e))
  | sent {p : Message} {s : Radio} (built : x.message r m = .ok p)
      (sent : c.send (x.peer m) p = (s, .ok ()))
      (run : ∃ remembered m', x.run r m = ({ s with remembered }, m', .ok ()))

theorem own_reduces (r : Radio) (m : Received) (peer : NodeId) (mode : SendMode) (p : Message) :
    ∃ c, r.Counts c ∧ (own peer mode p).Reduces r c m := by
  cases mode with
  | asIs =>
    refine ⟨r, ⟨_, _, rfl, .inl rfl, .inl rfl⟩, ?_⟩
    rcases sent : r.send peer p with ⟨s, _ | _⟩
    · exact .failed rfl sent (by simp only [run, Radio.dispatch, sent]; rfl)
    · exact .sent rfl sent (by simp only [run, Radio.dispatch, sent]; exact ⟨_, _, rfl⟩)
  | freshId =>
    refine ⟨r.drawId.1, ⟨_, _, rfl, .inr rfl, .inl rfl⟩, ?_⟩
    rcases sent : r.drawId.1.send peer { p with id := r.drawId.2 } with ⟨s, _ | _⟩
    · refine .failed rfl sent ?_
      simp only [run, Radio.dispatch, Radio.sendFresh, sent]
      rfl
    · refine .sent rfl sent ?_
      simp only [run, Radio.dispatch, Radio.sendFresh, sent]
      exact ⟨_, _, rfl⟩
  | request =>
    cases token : p.setToken r.drawToken.2 with
    | error e =>
      refine ⟨r.drawToken.1, ⟨_, _, rfl, .inl rfl, .inr rfl⟩, .unbuilt (e := e) ?_ ?_⟩
      · simp only [message, token, Except.map]
      · simp only [run, Radio.dispatch, Radio.sendRequest, token]
        exact ⟨_, rfl⟩
    | ok p' =>
      refine ⟨r.drawToken.1.drawId.1, ⟨_, _, rfl, .inr rfl, .inr rfl⟩, ?_⟩
      have built : (own peer .request p).message r m = .ok { p' with id := r.nextId } := by
        simp only [message, token, Except.map]
      rcases sent : r.drawToken.1.drawId.1.send peer { p' with id := r.drawToken.1.drawId.2 } with
        ⟨s, _ | _⟩
      · refine .failed built sent ?_
        simp only [run, Radio.dispatch, Radio.sendRequest, token, Radio.sendFresh, sent]
        rfl
      · refine .sent built sent ?_
        simp only [run, Radio.dispatch, Radio.sendRequest, token, Radio.sendFresh, sent]
        exact ⟨_, _, rfl⟩

theorem counts_addressResponse (r : Radio) (m : Received) (p : Message) :
    r.Counts (r.addressResponse m p).1 := by
  unfold Radio.addressResponse
  split
  · exact ⟨_, _, rfl, .inl rfl, .inl rfl⟩
  · exact ⟨_, _, rfl, .inr rfl, .inl rfl⟩
  · exact ⟨_, _, rfl, .inr rfl, .inl rfl⟩

theorem respond_reduces (r : Radio) (m : Received) (p : Message) :
    ∃ c, r.Counts c ∧ (respond p).Reduces r c m := by
  cases token : p.setToken m.packet.token with
  | error e =>
    refine ⟨r, ⟨_, _, rfl, .inl rfl, .inl rfl⟩, .unbuilt (e := e) ?_ ?_⟩
    · simp only [message, response, token, Except.map]
    · simp only [run, Radio.respond, token]
      exact ⟨_, rfl⟩
  | ok p' =>
    refine ⟨_, counts_addressResponse r m p', ?_⟩
    have built : (respond p).message r m = .ok (r.addressResponse m p').2 := by
      simp only [message, response, token, Except.map]
    rcases sent : (r.addressResponse m p').1.send m.peer (r.addressResponse m p').2 with ⟨s, _ | _⟩
    · exact .failed built sent (by simp only [run, Radio.respond, token, sent])
    · have stored : ∃ remembered, s.storeResponse m.peer m.packet.id (r.addressResponse m p').2 =
          { s with remembered } := by
        unfold Radio.storeResponse
        split <;> exact ⟨_, rfl⟩
      obtain ⟨remembered, stored⟩ := stored
      refine .sent built sent ?_
      simp only [run, Radio.respond, token, sent, stored]
      exact ⟨_, _, rfl⟩

theorem acknowledge_reduces (r : Radio) (m : Received) :
    ∃ c, r.Counts c ∧ acknowledge.Reduces r c m := by
  refine ⟨r, ⟨_, _, rfl, .inl rfl, .inl rfl⟩, ?_⟩
  have other : (emptyMessage .acknowledgement m.packet.id).kind ≠ .confirmable := by
    change MessageKind.acknowledgement ≠ .confirmable
    decide
  have same := Radio.send_of_other (r := r) m.peer other
  have run : acknowledge.run r m = r.acknowledge m := rfl
  unfold Radio.acknowledge at run
  rcases sent : r.transmit m.peer (emptyMessage .acknowledgement m.packet.id)
    (.sending m.packet.id) with ⟨s, _ | _⟩
  · rw [sent] at run
    exact .failed rfl (same.trans sent) run
  · rw [sent] at run
    exact .sent rfl (same.trans sent) ⟨_, _, run⟩

theorem reduces (x : Sending) (r : Radio) (m : Received) : ∃ c, r.Counts c ∧ x.Reduces r c m := by
  cases x with
  | own peer mode p => exact own_reduces r m peer mode p
  | respond p => exact respond_reduces r m p
  | acknowledge => exact acknowledge_reduces r m
  | reply code payload =>
    have run : (reply code payload).run r m = r.reply m code payload := rfl
    have message : (reply code payload).message r m = Except.bind _ (response r m) := rfl
    unfold Radio.reply at run
    generalize Packet.setPayload _ payload = set at run message
    obtain e | p := set
    · exact ⟨r, ⟨_, _, rfl, .inl rfl, .inl rfl⟩, .unbuilt message ⟨_, run⟩⟩
    · obtain ⟨c, counts, reduces⟩ := respond_reduces r m p
      refine ⟨c, counts, ?_⟩
      cases reduces with
      | unbuilt built responds => exact .unbuilt (message.trans built) (run ▸ responds)
      | failed built sent responds => exact .failed (message.trans built) sent (run.trans responds)
      | sent built sent responds => exact .sent (message.trans built) sent (run ▸ responds)

theorem run_cases (x : Sending) (r : Radio) (m : Received) :
    (∃ s e refused, x.run r m = (s, m, .error e) ∧ x.Fails r m e.cause refused ∧
        r.Unsent s refused) ∨
      ∃ s m' p, x.run r m = (s, m', .ok ()) ∧ (∀ cause refused, ¬ x.Fails r m cause refused) ∧
        x.message r m = .ok p ∧ r.Ships s (x.peer m) p := by
  obtain ⟨c, counts, reduces⟩ := x.reduces r m
  cases reduces with
  | unbuilt built run =>
    obtain ⟨activity, run⟩ := run
    exact .inl ⟨_, _, _, run, .unbuilt built, counts.unsent (Radio.Offered.refl c) rfl⟩
  | @failed p s e built sent run =>
    rcases c.send_cases (x.peer m) p with
      ⟨s', cause, refused, sent', hindered, offered⟩ | ⟨s', sent', -⟩
    · cases sent.symm.trans sent'
      exact .inl ⟨_, _, _, run, .hindered built (counts.hinders_iff.mp hindered),
        counts.unsent offered hindered.undelivered⟩
    · cases sent.symm.trans sent'
  | @sent p s built sent run =>
    obtain ⟨remembered, m', run⟩ := run
    rcases c.send_cases (x.peer m) p with
      ⟨s', cause, refused, sent', -⟩ | ⟨s', sent', works, offered⟩
    · cases sent.symm.trans sent'
    · cases sent.symm.trans sent'
      refine .inr ⟨_, m', p, run, ?_, built, c, s', remembered, counts, offered, rfl⟩
      rintro cause refused (unbuilt | ⟨built', hindered⟩)
      · cases built.symm.trans unbuilt
      · cases built.symm.trans built'
        exact works cause refused (counts.hinders_iff.mpr hindered)

/-- Whatever a radio is asked to send, it fails and leaves the radio as it was, or one message is
sent. -/
theorem run_ends {r : Radio} (ordered : r.Ordered) (x : Sending) (m : Received) :
    x.Ends r m (x.run r m) := by
  rcases x.run_cases r m with
    ⟨s, e, refused, run, fails, unsent⟩ | ⟨s, m', p, run, works, built, ships⟩
  · rw [run]
    exact .failed fails unsent
  · rw [run]
    exact .sent works built (ships.dispatched ordered)

set_option maxRecDepth 10000 in
/-- A network that is busy and then refuses takes nothing of a confirmable message. -/
theorem run_ends_refused :
    let r : Radio := { Radio.start 0 {} { ticks := 5000 } with
      network := { outcomes := [.busy, .failed 7] } }
    let m : Received := .fresh (emptyMessage .confirmable ⟨9⟩) 1
    let x : Sending := .own 2 .freshId (emptyMessage .confirmable ⟨0⟩)
    let p : Message := emptyMessage .confirmable r.nextId
    r.Ordered ∧ x.Fails r m (.transport 7) [⟨2, p, p.datagram, .sending p.id, some 7⟩] ∧
      (x.run r m).1.nextId = r.nextId.next ∧
      x.Ends r m (x.run r m) := by
  intro r m x p
  have ordered : r.Ordered := by
    change r.config.strategy.least ≤ r.config.strategy.greatest
    decide
  have room : r.HasRoom p := fun _ => show 0 < sentHistory by decide
  exact ⟨ordered, .hindered rfl (.refused room (by decide +kernel) rfl), by decide +kernel,
    run_ends ordered x m⟩

end Sending
end CoapNode
