import CoapNode.Proofs.Observe.Accounting
import CoapNode.Proofs.Observe.Publishing
/-! Requests to observe that fail. The clock, a full table, the status or the network may stand in
the way of a registration; then the resource is as before, and the sender is answered once by the
handler or by an error. Conditions that cannot be read are answered by an error as well. -/
namespace CoapNode

/-! ## Attempts to answer -/

/-- The response answers the message with this code and this payload. -/
structure Received.Answered (m : Received) (code : Code) (payload : List UInt8)
    (response : Message) : Prop extends m.Addresses response where
  code : response.code = code
  payload : response.payload = payload
  token : response.token = m.packet.token

/-- It was attempted once to answer the message: the response was offered to the network, or the
history had no room for it. -/
def Radio.Attempted (r s : Radio) (m : Received) (code : Code) (payload : List UInt8) : Prop :=
  ∃ response attempt, m.Answered code payload response ∧
    Attempt.Goes m.peer response r.unacknowledged.length attempt ∧
    s.transmissions = r.transmissions ++ attempt.transmission?.toList ∧
    s.network.delivered =
      r.network.delivered ++ attempt.transmission?.toList.flatMap (·.delivered)

theorem Packet.Canonical.setToken_of_optionless {p : Message} (h : p.Canonical)
    (optionless : p.options = []) (short : p.payload.length ≤ payloadBuffer) (token : ShortBytes) :
    ∃ q, p.setToken token = .ok q := by
  rw [Packet.setToken_eq]
  split
  · exact ⟨_, h.removeOption_eq (by decide) (by decide)⟩
  · have carries := OptionNumber.carries_token token
    have brief : Brief [⟨.token, token.bytes⟩] :=
      ⟨by simp, by simpa [ShortBytes.capacity] using token.length_le⟩
    have lawful : LawfulOptions [⟨.token, token.bytes⟩] :=
      (LawfulOptions.nil).inserts carries (.inr (by simp))
    have room := brief.room lawful
    have start := h.payloadStart_eq
    refine ⟨_, h.setOption_iff.mpr ⟨⟨carries, ?_⟩, rfl⟩⟩
    rw [optionless]
    unfold payloadBuffer at short
    change (encodeOptions 0 [⟨.token, token.bytes⟩]).length ≤ _
    omega

namespace Sending

theorem reply_message (r : Radio) (m : Received) (code : Code) {payload : List UInt8}
    (short : payload.length ≤ payloadBuffer) :
    ∃ p : Message, (reply code payload).message r m = .ok p ∧ p.Canonical ∧
      m.Answered code payload p := by
  have blank : ({ Packet.fresh 128 with code } : Message).Canonical :=
    (Packet.fresh_canonical 128).of_same_content rfl rfl rfl rfl
  have filled : ({ Packet.fresh 128 with code } : Message).setPayload payload =
      .ok { Packet.fresh 128 with code, payload } := by
    unfold payloadBuffer at short
    rw [Packet.setPayload_eq, if_neg (by simp [Packet.fresh]; omega)]
  have whole := blank.setPayload filled
  obtain ⟨q, marked⟩ := whole.setToken_of_optionless (Packet.options_of_region_nil rfl) short
    m.packet.token
  obtain ⟨token, differs⟩ := whole.token_setToken marked
  have canonical := whole.setToken marked
  obtain ⟨kind, id, content⟩ := r.addressResponse_content m q
  have addresses := (r.addressResponse_addresses m q).2
  have message : (reply code payload).message r m = .ok (r.addressResponse m q).2 := by
    change Except.bind _ (response r m) = _
    rw [filled]
    simp only [Except.bind, response, marked, Except.map]
  rw [content] at addresses message
  exact ⟨_, message, canonical.of_same_content rfl rfl rfl rfl, addresses, differs.code,
    differs.payload, token⟩

end Sending

theorem Radio.reply_attempted (r : Radio) (m : Received) (code : Code) {payload : List UInt8}
    (short : payload.length ≤ payloadBuffer) :
    r.Attempted (r.reply m code payload).1 m code payload := by
  obtain ⟨p, message, canonical, answered⟩ := Sending.reply_message r m code short
  have run : (Sending.reply code payload).run r m = r.reply m code payload := rfl
  rcases (Sending.reply code payload).run_cases r m with
    ⟨s, e, refused, done, fails, unsent⟩ | ⟨s, m', p', done, works, built, ships⟩
  · rw [← run, done]
    obtain ⟨_, _, _, _, rfl, -⟩ := unsent
    generalize e.cause = cause at fails
    cases fails with
    | unbuilt unbuilt => cases message.symm.trans unbuilt
    | hindered built hindered =>
      cases message.symm.trans built
      cases hindered with
      | full full =>
        obtain ⟨kind, full⟩ := not_hasRoom_iff.mp full
        exact ⟨p, .unsent p, answered, .unsent kind full, rfl, (List.append_nil _).symm⟩
      | long _ long => exact absurd long (Nat.not_lt_of_le canonical.sendable)
      | refused room => exact ⟨p, _, answered, .offered _ room, rfl, (List.append_nil _).symm⟩
  · rw [← run, done]
    cases message.symm.trans built
    have room : r.HasRoom p := by
      by_contra full
      exact works _ _ (.hindered message (.full full))
    obtain ⟨_, t, remembered, ⟨_, _, rfl, -⟩, offered, rfl⟩ := ships
    obtain ⟨-, -, transmissions, network⟩ := t.track_frame m.peer p
    obtain ⟨log, outcomes, rfl⟩ := offered
    refine ⟨p, _, answered, .offered none room, ?_, ?_⟩
    · split
      · exact transmissions
      · rfl
    · split
      · exact congrArg Network.delivered network
      · rfl

namespace Observable

variable {s : Observable} {n : Node} {m : Received} {conditions : List Condition}

theorem replyOrNote_attempted (n : Node) (m : Received) (code : Code) {payload : List UInt8}
    (short : payload.length ≤ payloadBuffer) :
    n.radio.Attempted (replyOrNote n m code payload).1.radio m code payload ∧
      (replyOrNote n m code payload).1.journal = n.journal ∧
      (replyOrNote n m code payload).1.stash = n.stash := by
  have attempted := n.radio.reply_attempted m code short
  unfold replyOrNote
  split
  · next done =>
    rw [done] at attempted
    exact ⟨attempted, rfl, rfl⟩
  · next failed =>
    rw [failed] at attempted
    exact ⟨attempted, rfl, rfl⟩

/-! ## Conditions -/

theorem parseConditions_of_read {raws : List (List UInt8)} {conditions : List Condition}
    (read : raws.map Condition.parse? = conditions.map some) (taken : List Condition)
    (few : taken.length + raws.length ≤ maxConditions) :
    parseConditions taken raws = .ok (taken ++ conditions) := by
  induction raws generalizing taken conditions with
  | nil =>
    rw [List.map_eq_nil_iff.mp read.symm, List.append_nil]
    rfl
  | cons raw rest ih =>
    obtain _ | ⟨c, later⟩ := conditions
    · cases read
    obtain ⟨head, tail⟩ := List.cons.inj read
    rw [List.length_cons] at few
    have room : ¬ maxConditions ≤ taken.length := by omega
    rw [parseConditions, head]
    simp only [if_neg room]
    rw [ih tail (taken ++ [c]) (by rw [List.length_append, List.length_singleton]; omega),
      List.append_assoc, List.singleton_append]

theorem parseConditions_refused {raws : List (List UInt8)} {taken : List Condition}
    (few : taken.length ≤ maxConditions)
    (bad : (∃ raw ∈ raws, Condition.parse? raw = none) ∨
      maxConditions < taken.length + raws.length) :
    ∃ cause, parseConditions taken raws = .error cause := by
  induction raws generalizing taken with
  | nil =>
    rcases bad with ⟨_, member, -⟩ | many
    · cases member
    · exact absurd many (Nat.not_lt_of_le few)
  | cons raw rest ih =>
    unfold parseConditions
    cases read : Condition.parse? raw with
    | none => exact ⟨_, rfl⟩
    | some c =>
      by_cases full : maxConditions ≤ taken.length
      · exact ⟨_, if_pos full⟩
      simp only [if_neg full]
      apply ih
      · rw [List.length_append, List.length_singleton]
        omega
      · rcases bad with ⟨x, member, unread⟩ | many
        · rcases List.mem_cons.mp member with rfl | later
          · rw [read] at unread
            cases unread
          · exact .inl ⟨x, later, unread⟩
        · rw [List.length_cons] at many
          exact .inr (by rw [List.length_append, List.length_singleton]; omega)

/-! ## Requests to observe -/

structure Concerns (s : Observable) (m : Received) : Prop where
  accepts : s.endpoint.accepts m.packet = true
  get : m.packet.code = Code.get
  observe : m.packet.observe.toBool = true

/-- The request attaches these conditions, and none of them ends observing. -/
structure Attaches (m : Received) (conditions : List Condition) : Prop where
  read : m.packet.conditions.map Condition.parse? = conditions.map some
  few : conditions.length ≤ maxConditions
  stays : ∀ c ∈ conditions, c.kind ≠ .cancellation

/-- The request attaches a condition that cannot be read, or too many. -/
def Garbles (m : Received) : Prop :=
  (∃ raw ∈ m.packet.conditions, Condition.parse? raw = none) ∨
    maxConditions < m.packet.conditions.length

/-- What stands in the way of a registration. -/
inductive Hindrance (s : Observable) (n : Node) (m : Received) : Prop
  | clock {e : RuntimeError} (unreadable : n.radio.now = .error e)
  | full (full : s.hasRoom m.peer = false)
  | status (unrendered : s.renderer.payload? s.status = none)
  | unsent {notification : Message} {cause : Cause} {refused : List Transmission}
      (built : s.notification m.packet.token = .ok notification)
      (fails : (Sending.respond notification).Fails n.radio m cause refused)

/-- What an offer of a request comes to that could not be registered. The resource is the same
always. The handler is run once if the table was full, and not at all otherwise; then an error is
sent, unless the request was answered before. -/
inductive Unregistered (s : Observable) (n : Node) (m : Received) :
    Observable × Node × Received × Bool → Prop
  | handled {now : Nat} (clock : n.radio.now = .ok now) (full : s.hasRoom m.peer = false)
      (text : String) : Unregistered s n m
        (s, (s.endpoint.handle n m).1.note .warn text, (s.endpoint.handle n m).2, true)
  | silent {r : Radio} {refused : List Transmission}
      (other : s.hasRoom m.peer = false → ∃ e, n.radio.now = .error e)
      (answered : m.answered = true) (unsent : n.radio.Unsent r refused) :
      Unregistered s n m (s, { n with radio := r }, m, true)
  | answered {r : Radio} {refused : List Transmission} {n' : Node} {m' : Received}
      (other : s.hasRoom m.peer = false → ∃ e, n.radio.now = .error e)
      (unanswered : m.answered = false) (unsent : n.radio.Unsent r refused)
      (attempted : r.Attempted n'.radio m Code.internalServerError [])
      (journal : n'.journal = n.journal) (stash : n'.stash = n.stash) :
      Unregistered s n m (s, n', m', true)

theorem cause_of_now {r : Radio} {e : RuntimeError} (unreadable : r.now = .error e) :
    e.cause = .clock := by
  unfold Radio.now at unreadable
  split at unreadable <;> cases unreadable
  rfl

theorem cause_of_fails {x : Sending} {r : Radio} {cause : Cause} {refused : List Transmission}
    (fails : x.Fails r m cause refused) : cause ≠ .observersFull := by
  cases fails with
  | unbuilt => simp
  | hindered _ hindered => cases hindered <;> simp

theorem mem_enter (s : Observable) (r : Radio) (o : Observer) : o ∈ (s.enter r o).1.observers := by
  rw [(s.enter_frame r o).1]
  rcases s.putObserver_cases r o with ⟨i, inside, -, put⟩ | ⟨-, put⟩
  · rw [put]
    exact List.mem_set inside o
  · rw [put]
    exact List.mem_append_right _ (List.mem_singleton_self o)

theorem offer_of_concerns (concerns : s.Concerns m) (n : Node) :
    s.offer n m = ((s.receiveGet n m).1, (s.receiveGet n m).2.1, (s.receiveGet n m).2.2, true) := by
  unfold offer
  rw [if_neg (by simp [concerns.accepts]), if_pos concerns.get]

theorem Attaches.proceeds (attaches : Attaches m conditions) (concerns : s.Concerns m) :
    parseConditions [] m.packet.conditions = .ok conditions ∧
      ¬ (!m.packet.observe.toBool || conditions.any (·.kind == .cancellation)) = true := by
  have count : m.packet.conditions.length = conditions.length := by
    simpa using congrArg List.length attaches.read
  have few : m.packet.conditions.length ≤ maxConditions := count ▸ attaches.few
  exact ⟨parseConditions_of_read attaches.read [] (by simpa using few),
    by simpa [concerns.observe] using attaches.stays⟩

theorem offer_of_attaches (concerns : s.Concerns m) (attaches : Attaches m conditions) (n : Node) :
    let left := afterAttempt m (s.registerObserver n m conditions)
    s.offer n m = (left.1, left.2.1, left.2.2, true) := by
  obtain ⟨read, wants⟩ := attaches.proceeds concerns
  rw [offer_of_concerns concerns, receiveGet_of_wants read wants]

theorem offer_of_garbles (concerns : s.Concerns m) (garbles : Garbles m) (n : Node) :
    ∃ n' m' text, s.offer n m = (s, n', m', true) ∧
      text ∈ ["too many conditions", "malformed condition"] ∧
      n.radio.Attempted n'.radio m Code.badOption (textBytes text) ∧
      n'.journal = n.journal ∧ n'.stash = n.stash ∧ n.Leads n' := by
  have none : ([] : List Condition).length ≤ maxConditions := Nat.zero_le _
  obtain ⟨cause, refused⟩ := parseConditions_refused none (by simpa [Garbles] using garbles)
  have diagnostic : conditionDiagnostic cause ∈ ["too many conditions", "malformed condition"] := by
    unfold conditionDiagnostic
    split <;> simp
  have short : ∀ text ∈ ["too many conditions", "malformed condition"],
      (textBytes text).length ≤ payloadBuffer := by decide +kernel
  obtain ⟨attempted, journal, stash⟩ := replyOrNote_attempted (n.note .warn
    ("rejecting observe request from " ++ toString m.peer ++ ": " ++ cause.inspect)) m
    Code.badOption (short _ diagnostic)
  rw [offer_of_concerns concerns, receiveGet, refused]
  exact ⟨_, _, _, rfl, diagnostic, attempted, journal, stash, note_replyOrNote_leads n _ _ m _ _⟩

theorem unregistered_of_failure {r : Radio} {e : RuntimeError} {refused : List Transmission}
    (other : s.hasRoom m.peer = false → ∃ e, n.radio.now = .error e)
    (cause : e.cause ≠ .observersFull) (unsent : n.radio.Unsent r refused) :
    let left := s.afterFailure m.peer { n with radio := r } m e
    s.Unregistered n m (left.1, left.2.1, left.2.2, true) ∧ left.2.1.journal = n.journal := by
  have noted : ∀ text, n.radio.Unsent (r.note .warn text) refused := by
    obtain ⟨_, _, _, _, rfl, used⟩ := unsent
    exact fun _ => ⟨_, _, _, _, rfl, used⟩
  simp only [afterFailure]
  cases answered : m.answered with
  | true =>
    rw [if_neg (by simp)]
    exact ⟨.silent other answered (noted _), rfl⟩
  | false =>
    rw [if_pos (by simpa using cause)]
    have short : ([] : List UInt8).length ≤ payloadBuffer := Nat.zero_le _
    obtain ⟨attempted, journal, stash⟩ := replyOrNote_attempted
      (({ n with radio := r } : Node).note .warn
        ("could not register observer " ++ toString m.peer ++ ": " ++ e.inspect)) m
      Code.internalServerError short
    exact ⟨.answered other answered (noted _) attempted journal stash, journal⟩

/-- The reasons why an attempt to enter the sender fails are the hindrances, and each is answered.
Refreshes are asked for by the handler alone. -/
theorem unregistered_of_hindrance (s : Observable) (n : Node) (m : Received)
    (conditions : List Condition) :
    match s.registerObserver n m conditions with
    | (s', _, _, .ok _) => ¬ s.Hindrance n m ∧ ∃ now, n.radio.now = .ok now ∧
        s.entry m now conditions ∈ s'.observers
    | (s', n', m', .error e) =>
      let left := s'.afterFailure m.peer n' m' e
      s.Hindrance n m ∧ s.Unregistered n m (left.1, left.2.1, left.2.2, true) ∧
        ∀ id, left.2.1.radio.refreshes id =
          n.radio.refreshes id + (left.2.1.askedSince n).count (.maxAge id) := by
  have idle : n.radio.Unsent n.radio [] :=
    ⟨_, _, n.radio.log, n.radio.network.outcomes, by simp, .inl rfl, .inl rfl⟩
  have quiet : ∀ {n' : Node}, n.Leads n' → n'.journal = n.journal → ∀ id, n'.radio.refreshes id =
      n.radio.refreshes id + (n'.askedSince n).count (.maxAge id) := by
    intro n' leads same id
    rw [leads.refreshes_of_journal same id]
    simp [Node.askedSince, same]
  have admits := s.registerObserver_admits n m conditions
  generalize s.registerObserver n m conditions = outcome at admits ⊢
  cases admits with
  | @unclocked e clock =>
    have cause : e.cause ≠ .observersFull := by
      rw [cause_of_now clock]
      simp
    obtain ⟨unregistered, journal⟩ :=
      unregistered_of_failure (s := s) (m := m) (fun _ => ⟨e, clock⟩) cause idle
    exact ⟨.clock clock, unregistered, quiet (s.afterFailure_leads _ _ _ _) journal⟩
  | full clock full =>
    have left : ∃ text, s.afterFailure m.peer (s.endpoint.handle n m).1 (s.endpoint.handle n m).2
        ⟨.observersFull, .registering⟩ =
          (s, (s.endpoint.handle n m).1.note .warn text, (s.endpoint.handle n m).2) :=
      ⟨_, if_neg (by simp)⟩
    obtain ⟨text, left⟩ := left
    simp only [left]
    exact ⟨.full full, .handled clock full text, s.endpoint.handle_refreshes n m⟩
  | unbuilt clock room unbuilt =>
    obtain ⟨unrendered, rfl⟩ := notification_eq_error_iff.mp unbuilt
    obtain ⟨unregistered, journal⟩ := unregistered_of_failure (s := s) (m := m)
      (e := ⟨.payloadFormat, .notifying⟩) (by simp [room]) (by simp) idle
    exact ⟨.status unrendered, unregistered, quiet (s.afterFailure_leads _ _ _ _) journal⟩
  | @unsent now packet r e clock room built failed =>
    rcases (Sending.respond packet).run_cases n.radio m with
      ⟨_, _, refused, done, fails, unsent⟩ | ⟨_, _, _, done, -⟩
    · cases failed.symm.trans done
      obtain ⟨unregistered, journal⟩ := unregistered_of_failure (s := s) (m := m)
        (by simp [room]) (cause_of_fails fails) unsent
      have leads := n.radio.respond_leads m packet
      rw [failed] at leads
      exact ⟨.unsent built fails, unregistered,
        quiet ((Node.leads_of_radio leads).trans (s.afterFailure_leads _ _ _ _)) journal⟩
    · cases failed.symm.trans done
  | @entered now packet r m' clock room built done =>
    refine ⟨?_, now, clock, mem_enter _ _ _⟩
    rcases (Sending.respond packet).run_cases n.radio m with
      ⟨_, _, _, failed, -⟩ | ⟨_, _, _, _, works, -⟩
    · cases done.symm.trans failed
    rintro (unreadable | full | unrendered | ⟨built', fails⟩)
    · cases clock.symm.trans unreadable
    · cases room.symm.trans full
    · cases built.symm.trans (notification_eq_error_iff.mpr ⟨unrendered, rfl⟩)
    · cases built.symm.trans built'
      exact works _ _ fails

/-- A request to observe is registered, unless something stands in its way. Then it leaves no trace
and is still answered; if its conditions are garbled, by one error and nothing else. -/
theorem offer_registers_or_answers (n : Node) (concerns : s.Concerns m) :
    (∀ conditions, Attaches m conditions →
      (s.Hindrance n m → s.Unregistered n m (s.offer n m) ∧
        ∀ id, (s.offer n m).2.1.radio.refreshes id =
          n.radio.refreshes id + ((s.offer n m).2.1.askedSince n).count (.maxAge id)) ∧
      (¬ s.Hindrance n m → ∃ now, n.radio.now = .ok now ∧
        s.entry m now conditions ∈ (s.offer n m).1.observers)) ∧
    (Garbles m → ∃ n' m' text, s.offer n m = (s, n', m', true) ∧
      text ∈ ["too many conditions", "malformed condition"] ∧
      n.radio.Attempted n'.radio m Code.badOption (textBytes text) ∧
      n'.journal = n.journal ∧ n'.stash = n.stash ∧
      ∀ id, n'.radio.refreshes id = n.radio.refreshes id) := by
  refine ⟨fun conditions attaches => ?_, fun garbles => ?_⟩
  · have outcome := s.unregistered_of_hindrance n m conditions
    rw [offer_of_attaches concerns attaches]
    generalize s.registerObserver n m conditions = registered at outcome ⊢
    obtain ⟨s', n', m', e | _⟩ := registered
    · obtain ⟨hindered, unregistered, refreshes⟩ := outcome
      exact ⟨fun _ => ⟨unregistered, refreshes⟩, fun free => absurd hindered free⟩
    · obtain ⟨unhindered, registers⟩ := outcome
      exact ⟨fun hindered => absurd hindered unhindered, fun _ => registers⟩
  · obtain ⟨n', m', text, offered, diagnostic, attempted, journal, stash, leads⟩ :=
      offer_of_garbles concerns garbles n
    exact ⟨n', m', text, offered, diagnostic, attempted, journal, stash,
      leads.refreshes_of_journal journal⟩

set_option maxRecDepth 10000 in
/-- An observer that asks again while its status cannot be rendered gets an error and stays what it
was. -/
theorem offer_registers_or_answers_unrendered :
    let s : Observable := ⟨⟨"a", some ⟨0⟩, false, .fixed [.echoPath]⟩, .natural 5, 60, false,
      [⟨1, .empty, ⟨20⟩, 10, .natural 4, []⟩], 4, 1, Renderer.failing⟩
    let n : Node := ⟨Radio.start 0 {} { ticks := 5000 }, [], []⟩
    let bytes := [0x43, 1, 0, 9, 0x91, 97, 0x10, 0x11, 7]
    let m := Received.fresh ((Packet.decode 128 bytes).toOption.getD (Packet.fresh 128)) 1
    s.Concerns m ∧ Attaches m [] ∧ s.Hindrance n m ∧
      (s.offer n m).2.1.radio.transmissions.map (fun t => (t.peer, t.packet.code)) =
        [(1, Code.internalServerError)] ∧
      s.Unregistered n m (s.offer n m) := by
  intro s n bytes m
  have concerns : s.Concerns m := ⟨by decide +kernel, by decide +kernel, by decide +kernel⟩
  have attaches : Attaches m [] := ⟨by decide +kernel, by decide, by simp⟩
  have hindrance : s.Hindrance n m := .status rfl
  exact ⟨concerns, attaches, hindrance, by decide +kernel,
    (((offer_registers_or_answers n concerns).1 [] attaches).1 hindrance).1⟩

end Observable
end CoapNode
