import CoapNode.Proofs.Observe.Table
/-! Why an observer leaves the table. Resets and expiries are told to every service; a resource
goes by peer and token, or by peer and noted id, whatever the message in question was. -/
namespace CoapNode

/-! ## Occasions of a visit -/

/-- A handler changed the message at hand since. -/
def Node.RewrittenSince (n' n : Node) : Prop :=
  ∃ packet peer, Deed.rewritten packet peer ∈ n'.deedsSince n

namespace Publisher

/-- A turn and the visit that it brings. -/
inductive Occasion (p : Publisher) : Turn → Visit → Prop
  | offer {bytes : List UInt8} {before after : List Service} {n : Node} {m : Received}
      (other : m.peer ≠ p.node.radio.self) (read : Packet.decode 128 bytes = .ok m.packet)
      (current : p.resource.endpoint.registration.isSome = true) :
      Occasion p (.receive m.peer bytes before after) (.offer n m)
  | altered {peer : NodeId} {bytes : List UInt8} {before after : List Service} {n : Node}
      {m : Received} (changed : n.RewrittenSince p.node)
      (current : p.resource.endpoint.registration.isSome = true) :
      Occasion p (.receive peer bytes before after) (.offer n m)
  | refresh {id : RegistrationId} {before after : List Service} {r : Radio}
      (current : p.resource.endpoint.registration = some id) :
      Occasion p (.fire (.maxAge id) before after) (.refresh r)
  | reset {bytes : List UInt8} {before after : List Service} {packet : Message}
      {e : Unacknowledged} {r : Radio} (read : Packet.decode 128 bytes = .ok packet)
      (kind : packet.kind = .reset) (sent : e ∈ p.node.radio.unacknowledged)
      (id : e.packet.id = packet.id) :
      Occasion p (.receive e.peer bytes before after) (.forget r e.peer e.packet.token)
  | disown {peer : NodeId} {bytes : List UInt8} {before after : List Service} {packet : Message}
      {r : Radio} (read : Packet.decode 128 bytes = .ok packet) (kind : packet.kind = .reset)
      (unknown : ∀ e ∈ p.node.radio.unacknowledged, ¬ (e.peer = peer ∧ e.packet.id = packet.id)) :
      Occasion p (.receive peer bytes before after) (.disown r peer packet.id)
  | expiry {before after : List Service} {e : Unacknowledged} {r : Radio}
      (sent : e ∈ p.node.radio.unacknowledged)
      (spent : e.backoff.maxAttempts ≤ e.backoff.attempts) :
      Occasion p (.fire (.retransmit e.packet.id) before after) (.forget r e.peer e.packet.token)
  | call (c : ServiceCall) : Occasion p (.call c) (.call p.node.radio c)

end Publisher

namespace Node

variable {n : Node} {m : Received} {before : List Service} {visit : Visit}

/-- What is offered is the message that came, unless a handler before changed it. -/
theorem offers?_eq_some {registration : Option RegistrationId}
    (offered : n.offers? m before registration = some visit) :
    ∃ n' m', visit = .offer n' m' ∧ registration.isSome = true ∧
      (m'.peer = m.peer ∧ m'.packet = m.packet ∨ n'.RewrittenSince n) := by
  obtain ⟨entries, journal, -, conduct⟩ := n.offerRequest_serves m before
  unfold offers? at offered
  split at offered
  · cases offered
  split at offered
  · cases offered
  next n' m' _ done =>
  rw [done] at journal conduct
  have deeds : n'.deedsSince n = entries.filterMap (·.deed?) := by
    rw [deedsSince, show n'.journal = n.journal ++ entries from journal, List.drop_left]
  split at offered
  · next current =>
    cases offered
    refine ⟨n', m', rfl, ?_, ?_⟩
    · cases registration with
      | none => cases current
      | some _ => rfl
    · by_cases intact : ∀ packet peer, .rewritten packet peer ∉ entries.filterMap (·.deed?)
      · exact .inl (conduct.message intact)
      · simp only [not_forall, not_not] at intact
        exact .inr (by simpa only [RewrittenSince, deeds] using intact)
  · cases offered

theorem tellsReset_cases (n : Node) (peer : NodeId) (packet : Message) (before : List Service) :
    ((∀ e ∈ n.radio.unacknowledged, ¬ (e.peer = peer ∧ e.packet.id = packet.id)) ∧
        ∃ r, n.tellsReset peer packet before = .disown r peer packet.id) ∨
      ∃ e ∈ n.radio.unacknowledged, e.peer = peer ∧ e.packet.id = packet.id ∧
        ∃ r, n.tellsReset peer packet before = .forget r peer e.packet.token := by
  unfold tellsReset
  rcases takeUnacknowledged_cases n.radio peer packet.id with
    ⟨taken, absent⟩ | ⟨i, e, found, goes, id, taken⟩
  · rw [taken]
    exact .inl ⟨absent, _, rfl⟩
  · rw [taken]
    exact .inr ⟨e, List.mem_of_getElem? found, goes, id, _, rfl⟩

theorem tellsExpiry?_eq_some {id : MessageId} (told : n.tellsExpiry? id before = some visit) :
    ∃ e ∈ n.radio.unacknowledged, e.packet.id = id ∧
      e.backoff.maxAttempts ≤ e.backoff.attempts ∧
      ∃ r, visit = .forget r e.peer e.packet.token := by
  unfold tellsExpiry? at told
  simp only at told
  split at told
  · cases told
  next e found =>
  have same : e.packet.id = id := by
    obtain ⟨inside, here⟩ := List.getElem?_eq_some_iff.mp found
    have := List.findIdx_getElem (p := fun s : Unacknowledged => s.packet.id == id) (w := inside)
    rw [here] at this
    simpa using this
  by_cases spent : e.backoff.maxAttempts ≤ e.backoff.attempts
  · simp only [Backoff.nextAttempt, if_pos spent] at told
    cases told
    exact ⟨e, List.mem_of_getElem? found, same, spent, _, rfl⟩
  · simp only [Backoff.nextAttempt, if_neg spent] at told
    cases told

end Node

namespace Publisher

theorem visit_occasion {p : Publisher} {t : Turn} {v : Visit} (visited : p.visit? t = some v) :
    p.Occasion t v := by
  cases t with
  | receive peer bytes before after =>
    unfold visit? at visited
    simp only at visited
    split at visited
    · cases visited
    next other =>
    split at visited
    · cases visited
    next packet read =>
    cases kind : packet.kind with
    | acknowledgement =>
      rw [kind] at visited
      cases visited
    | reset =>
      rw [kind] at visited
      cases visited
      rcases (p.node.heard peer packet).tellsReset_cases peer packet before with
        ⟨unknown, r, same⟩ | ⟨e, sent, rfl, id, r, same⟩
      · rw [same]
        exact .disown read kind unknown
      · rw [same]
        exact .reset read kind sent id
    | confirmable | nonConfirmable =>
      rw [kind] at visited
      simp only [Node.originalOffers?] at visited
      split at visited
      · cases visited
      obtain ⟨n, m, rfl, current, ⟨rfl, rfl⟩ | changed⟩ := Node.offers?_eq_some visited
      · exact .offer other read current
      · exact .altered changed current
  | fire event before after =>
    cases event with
    | retransmit id =>
      obtain ⟨e, sent, rfl, spent, r, rfl⟩ := Node.tellsExpiry?_eq_some visited
      exact .expiry sent spent
    | maxAge id =>
      unfold visit? at visited
      simp only at visited
      split at visited
      · next current =>
        cases visited
        exact .refresh current
      · cases visited
  | call c =>
    cases visited
    exact .call c
  | apart op => cases visited

end Publisher

/-! ## Who is in the table -/

namespace Observable

/-- The peer has no entry any more. -/
def Gone (s : Observable) (o : Observer) : Prop := ∀ x ∈ s.observers, x.peer ≠ o.peer

variable {s : Observable} {o : Observer}

theorem not_gone_of_peer {s' : Observable} (peer : o.peer ∈ s'.observers.map (·.peer)) :
    ¬ Gone s' o := by
  intro gone
  obtain ⟨x, found, same⟩ := List.mem_map.mp peer
  exact gone x found same

theorem not_gone_of_peers {s' : Observable} (member : o ∈ s.observers)
    (peers : s'.observers.map (·.peer) = s.observers.map (·.peer)) : ¬ Gone s' o :=
  not_gone_of_peer (peers ▸ List.mem_map_of_mem member)

theorem gone_forget {r : Radio} {peer : NodeId} {token : ShortBytes} (member : o ∈ s.observers)
    (gone : Gone (s.forget r peer token).1 o) : peer = o.peer ∧ token = o.token := by
  by_contra other
  have kept : o ∈ (s.forget r peer token).1.observers := by
    refine List.mem_filter.mpr ⟨member, ?_⟩
    simp only [Bool.not_eq_true', Bool.and_eq_false_iff, beq_eq_false_iff_ne]
    by_contra! both
    exact other ⟨both.1.symm, both.2.symm⟩
  exact gone o kept rfl

theorem peers_notifyObservers (s : Observable) (r : Radio) (unconditionally : Bool) :
    (s.notifyObservers r unconditionally).1.observers.map (·.peer) =
      s.observers.map (·.peer) := by
  rcases s.notifyObservers_cases r unconditionally with
    ⟨_, -, done⟩ | ⟨_, _, _, _, _, -, -, tells, done⟩
  · rw [done]
  · rw [done]
    exact tells.peers.1

theorem peers_timerFired (s : Observable) (r : Radio) :
    (s.timerFired r).1.observers.map (·.peer) = s.observers.map (·.peer) := by
  rcases s.timerFired_cases r with ⟨-, idle⟩ | ⟨-, -, log, told⟩
  · rw [idle]
  · rw [told, (Observable.scheduleRefresh_frame _ _).1, peers_notifyObservers]

theorem peers_called (s : Observable) (r : Radio) {c : ServiceCall} (other : c ≠ .shutdown) :
    (s.called r c).1.observers.map (·.peer) = s.observers.map (·.peer) := by
  cases c with
  | shutdown => exact absurd rfl other
  | setStatus v =>
    let next : Observable := { s with status := v, counter := s.counter + 1 }
    have published := (next.published_frame r false (next.notifyObservers r false).2.1.log).1
    exact (congrArg (List.map (·.peer)) published).trans (peers_notifyObservers next r false)
  | _ => rfl

theorem gone_offer {n : Node} {m : Received} (member : o ∈ s.observers)
    (gone : Gone (s.offer n m).1 o) : m.peer = o.peer ∧ s.Declines m := by
  have serves := s.offer_cases n m
  generalize (s.offer n m).1 = s' at gone serves
  generalize (s.offer n m).2.1 = n' at serves
  cases serves with
  | apart other => exact absurd rfl (gone o member)
  | failed takes others => exact absurd rfl (gone o member)
  | stopped other declines =>
    refine ⟨?_, declines⟩
    by_contra away
    exact gone o (List.mem_filter.mpr ⟨member, by simpa using Ne.symm away⟩) rfl
  | @registered r t conditions now registers answers =>
    refine absurd gone (not_gone_of_peer ?_)
    rw [(s.enter_frame r (s.entry m now conditions)).1, s.putObserver_peers]
    exact List.mem_append_left _ (List.mem_map_of_mem member)

end Observable

namespace Publisher

/-! ## Departures -/

/-- Why an observer leaves in a turn. -/
inductive Departs (p : Publisher) (ledger : List Notice) (o : Observer) : Turn → Prop
  /-- Its peer sent a request that does not ask to observe, or cancels. -/
  | declined {bytes : List UInt8} {before after : List Service} {n : Node} {m : Received}
      {conditions : List Condition} (read : Packet.decode 128 bytes = .ok m.packet)
      (reached : p.visit? (.receive o.peer bytes before after) = some (.offer n m))
      (get : m.packet.code = Code.get)
      (parsed : Observable.parseConditions [] m.packet.conditions = .ok conditions)
      (declines : m.packet.isSet .observe = false ∨ ∃ c ∈ conditions, c.kind = .cancellation) :
      Departs p ledger o (.receive o.peer bytes before after)
  /-- A handler of a service that was asked before made such a request of a message. -/
  | altered {peer : NodeId} {bytes : List UInt8} {before after : List Service} {n : Node}
      {m : Received} (changed : n.RewrittenSince p.node)
      (reached : p.visit? (.receive peer bytes before after) = some (.offer n m))
      (mine : m.peer = o.peer) (declines : p.resource.Declines m) :
      Departs p ledger o (.receive peer bytes before after)
  | shutdown : Departs p ledger o (.call .shutdown)
  /-- Its peer reset an unacknowledged message that bears its token. -/
  | reset {bytes : List UInt8} {before after : List Service} {packet : Message}
      {e : Unacknowledged} (read : Packet.decode 128 bytes = .ok packet)
      (kind : packet.kind = .reset) (sent : e ∈ p.node.radio.unacknowledged)
      (goes : e.peer = o.peer) (id : e.packet.id = packet.id) (token : e.packet.token = o.token) :
      Departs p ledger o (.receive o.peer bytes before after)
  /-- Its peer reset no unacknowledged message, but the id noted for its latest notification. -/
  | disowned {bytes : List UInt8} {before after : List Service} {packet : Message} {x : Notice}
      (read : Packet.decode 128 bytes = .ok packet) (kind : packet.kind = .reset)
      (unknown : ∀ e ∈ p.node.radio.unacknowledged,
        ¬ (e.peer = o.peer ∧ e.packet.id = packet.id))
      (latest : Notice.latest? ledger o.peer = some x) (told : o.Told p.resource.renderer x)
      (noted : o.lastId = packet.id) : Departs p ledger o (.receive o.peer bytes before after)
  /-- A message to its peer that bears its token was never acknowledged. -/
  | expired {before after : List Service} {e : Unacknowledged}
      (sent : e ∈ p.node.radio.unacknowledged) (goes : e.peer = o.peer)
      (token : e.packet.token = o.token) (spent : e.backoff.maxAttempts ≤ e.backoff.attempts) :
      Departs p ledger o (.fire (.retransmit e.packet.id) before after)

theorem departs_of_gone {p : Publisher} {ledger : List Notice} (table : Table p.resource ledger)
    {t : Turn} {o : Observer} (member : o ∈ p.resource.observers)
    (gone : (p.step t).resource.Gone o) : p.Departs ledger o t := by
  rw [p.step_resource] at gone
  cases visited : p.visit? t with
  | none =>
    rw [visited] at gone
    exact absurd rfl (gone o member)
  | some v =>
  rw [visited, Option.elim_some] at gone
  have reached := visited
  cases visit_occasion visited with
  | offer other read current =>
    obtain ⟨mine, accepts, get, conditions, parsed, declines⟩ := Observable.gone_offer member gone
    rw [mine] at reached ⊢
    refine .declined read reached get parsed (declines.imp_left fun plain => ?_)
    have canonical := (Packet.decode_canonical 128 _).1 _ read
    rw [← canonical.readUInt_toBool (by decide) (by decide) (by decide)]
    exact plain
  | altered changed current =>
    obtain ⟨mine, declines⟩ := Observable.gone_offer member gone
    exact .altered changed reached mine declines
  | refresh current => exact absurd gone (Observable.not_gone_of_peers member
      (Observable.peers_timerFired _ _))
  | @reset bytes before after packet e r read kind sent id =>
    obtain ⟨goes, token⟩ := Observable.gone_forget member gone
    rw [goes]
    exact .reset read kind sent goes id token
  | @disown peer bytes before after packet r read kind unknown =>
    rcases p.resource.forgetNotified_cases r peer packet.id with
      ⟨-, same⟩ | ⟨x, found, rfl, noted, same⟩
    · simp only [Visit.done, same] at gone
      exact absurd rfl (gone o member)
    · simp only [Visit.done, same] at gone
      -- the token forgotten is that of the entry found first, which is the peer's only one
      have mine := table.eq_of_peer found member (Observable.gone_forget member gone).1
      subst mine
      obtain ⟨notice, latest, told⟩ := table.told x member
      exact .disowned read kind unknown latest told noted
  | expiry sent spent =>
    obtain ⟨goes, token⟩ := Observable.gone_forget member gone
    exact .expired sent goes token spent
  | call c =>
    by_cases shut : c = .shutdown
    · rw [shut]
      exact .shutdown
    · exact absurd gone (Observable.not_gone_of_peers member
        (Observable.peers_called _ _ shut))

/-- Whatever a node and an observable resource went through, and whatever other services and the
application do, an observer leaves only because its peer sends a request that does not ask to
observe, or cancels, or a handler hands on such a request in its name; because of the shutdown; or
because a message with its token, or under the id noted for its latest notification, was reset by
its peer, or a message with its token was never acknowledged. -/
theorem departs_for_cause {n : Node} {r : Radio} {path : String} {handler : Handler}
    {status : Reading} {renderer : Renderer} {s : Observable}
    (created : Observable.create n.radio path handler status renderer = (r, .ok s))
    (elapsed : List TimerEvent) (turns : List Turn) (t : Turn) :
    let start : Publisher := ⟨{ n with radio := r }, s, elapsed⟩
    let p := start.after turns
    ∀ o ∈ p.resource.observers, (∀ x ∈ (p.step t).resource.observers, x.peer ≠ o.peer) →
      p.Departs (start.ledger turns) o t := by
  intro start p o member gone
  have table := table_after (p := start) (table_of_empty (created_observers created).1) turns
  exact departs_of_gone table member gone

set_option maxRecDepth 10000 in
/-- The peer resets the notification of a new status. -/
theorem departs_for_reset :
    let created := Observable.create (Radio.start 0 {} {}) "a" (.fixed []) (.natural 5)
      Renderer.plain
    let turns := [.receive 1 [0x43, 1, 0, 9, 0x91, 97, 0x10, 0x11, 7] [] [],
      .call (.setStatus (.natural 6))]
    let reset : Turn := .receive 1 [0x70, 0, 0x3B, 0x6C] [] []
    ∃ r s, created = (r, .ok s) ∧
      let start : Publisher := ⟨⟨r, [], []⟩, s, []⟩
      let p := start.after turns
      ∃ o ∈ p.resource.observers, (∀ x ∈ (p.step reset).resource.observers, x.peer ≠ o.peer) ∧
        p.Departs (start.ledger turns) o reset := by
  refine ⟨_, _, rfl, ?_⟩
  intro start p
  have present : 0 < p.resource.observers.length := by decide +kernel
  have absent :
      (p.step (.receive 1 [0x70, 0, 0x3B, 0x6C] [] [])).resource.observers.length = 0 := by
    decide +kernel
  obtain ⟨o, member⟩ := List.exists_mem_of_length_pos present
  have gone : ∀ x ∈ (p.step (.receive 1 [0x70, 0, 0x3B, 0x6C] [] [])).resource.observers,
      x.peer ≠ o.peer := by
    rw [List.eq_nil_of_length_eq_zero absent]
    simp
  exact ⟨o, member, gone,
    departs_for_cause (n := ⟨Radio.start 0 {} {}, [], []⟩) rfl [] _ _ o member gone⟩

set_option maxRecDepth 10000 in
/-- A peer asks to observe under the token of a request that the application sent to it, and then
resets that request, which no notification shares the id of. The observer is dropped. And so is one
in whose name a handler hands on another peer's request. -/
theorem departs_for_own_request :
    let created := Observable.create (Radio.start 0 {} {}) "a" (.fixed []) (.natural 5)
      Renderer.plain
    let own : Action := .send 1 .request { Packet.fresh 128 with code := Code.get }
    let asks : Turn := .receive 1 [0x43, 1, 0, 9, 0x91, 97, 0x10, 0x14, 0, 0, 0xF7, 0x67] [] []
    let turns := [.apart (.perform own (.fresh (Packet.fresh 128) 1)), asks]
    let reset : Turn := .receive 1 [0x70, 0, 0x3B, 0x6C] [] []
    let impostor : Service :=
      .probe ⟨some ⟨0⟩, false, false, false, fun _ m => [.rewrite m.packet 1]⟩
    let plain : Turn := .receive 2 [0x41, 1, 0, 9, 0x91, 97] [impostor] []
    ∃ r s, created = (r, .ok s) ∧
      let start : Publisher := ⟨⟨r, [], []⟩, s, []⟩
      let p := start.after turns
      let q := start.after [asks]
      p.resource.observers.map (·.peer) = [1] ∧
        (p.step reset).resource.observers.map (·.peer) = [] ∧
        (start.ledger turns).map (·.packet.id) = [⟨9⟩] ∧
        p.node.radio.unacknowledged.map (fun e => (e.peer, e.packet.id, e.packet.code)) =
          [(1, ⟨0x3B6C⟩, Code.get)] ∧
      q.resource.observers.map (·.peer) = [1] ∧
        (q.step plain).resource.observers.map (·.peer) = [] := by
  refine ⟨_, _, rfl, ?_⟩
  decide +kernel

end Publisher
end CoapNode
