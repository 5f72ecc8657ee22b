import CoapNode.Proofs.Packet.Reading
import CoapNode.Proofs.Node.Conduct
/-! What an observable resource sends. A notification carries the token of the observer and the
status, and the observer is noted to know the status exactly if the network took it. -/
namespace CoapNode

/-! ## Datagrams that the network took -/

namespace Radio

/-- The second radio is the first after some datagrams were offered, of which the network took
these. -/
def Takes (r s : Radio) (taken : List Transmission) : Prop :=
  ∃ offered, s.transmissions = r.transmissions ++ offered ∧
    offered.filter (·.refusal.isNone) = taken

/-- The datagrams that the network took since. -/
def takenSince (s r : Radio) : List Transmission :=
  (s.transmissions.drop r.transmissions.length).filter (·.refusal.isNone)

variable {r s t : Radio} {taken taken' : List Transmission}

theorem Takes.since (h : r.Takes s taken) : s.takenSince r = taken := by
  obtain ⟨offered, transmissions, rfl⟩ := h
  rw [takenSince, transmissions, List.drop_left]

theorem takes_of_same (same : s.transmissions = r.transmissions) : r.Takes s [] :=
  ⟨[], by rw [same, List.append_nil], rfl⟩

theorem Takes.trans (h : r.Takes s taken) (h' : s.Takes t taken') :
    r.Takes t (taken ++ taken') := by
  obtain ⟨offered, first, rfl⟩ := h
  obtain ⟨offered', second, rfl⟩ := h'
  exact ⟨offered ++ offered', by rw [second, first, List.append_assoc], List.filter_append ..⟩

theorem Takes.before (h : s.Takes t taken) (same : s.transmissions = r.transmissions) :
    r.Takes t taken := (takes_of_same same).trans h

theorem Takes.later (h : r.Takes s taken) (same : t.transmissions = s.transmissions) :
    r.Takes t taken := by
  simpa using h.trans (takes_of_same same)

/-- What an attempt to send comes to: the network took the message, or it took none. -/
inductive Sent (r : Radio) (peer : NodeId) (packet : Message) : Radio → Bool → Prop
  | through {s : Radio} (t : Transmission) (goes : t.peer = peer) (holds : t.packet = packet)
      (takes : r.Takes s [t]) : Sent r peer packet s true
  | failed {s : Radio} (takes : r.Takes s []) : Sent r peer packet s false

variable {peer : NodeId} {packet : Message} {done : Bool}

theorem Sent.before (h : s.Sent peer packet t done) (same : s.transmissions = r.transmissions) :
    r.Sent peer packet t done := by
  cases h with
  | through x goes holds takes => exact .through x goes holds (takes.before same)
  | failed takes => exact .failed (takes.before same)

theorem Sent.later (h : r.Sent peer packet s done) (same : t.transmissions = s.transmissions) :
    r.Sent peer packet t done := by
  cases h with
  | through x goes holds takes => exact .through x goes holds (takes.later same)
  | failed takes => exact .failed (takes.later same)

theorem transmit_sent (r : Radio) (peer : NodeId) (packet : Message) (activity : Activity) :
    r.Sent peer packet (r.transmit peer packet activity).1
      (r.transmit peer packet activity).2.toBool := by
  rcases r.transmit_cases peer packet activity with
    ⟨-, same, e, failed⟩ | ⟨refusal, offers, -, ok⟩
  · rw [failed, same]
    exact .failed (takes_of_same rfl)
  cases refusal with
  | none =>
    rw [ok.mpr rfl]
    exact .through _ rfl rfl ⟨_, offers.transmissions, rfl⟩
  | some code =>
    cases result : (r.transmit peer packet activity).2 with
    | error e => exact .failed ⟨_, offers.transmissions, rfl⟩
    | ok _ => exact absurd (ok.mp result) (by simp)

theorem send_sent (r : Radio) (peer : NodeId) (packet : Message) :
    r.Sent peer packet (r.send peer packet).1 (r.send peer packet).2.toBool := by
  have sent := r.transmit_sent peer packet (.sending packet.id)
  unfold send
  simp only
  split
  · exact .failed (takes_of_same rfl)
  split
  · next failed => rw [failed] at sent; exact sent
  · next offered _ done =>
    rw [done] at sent
    split
    · exact sent.later (offered.track_frame peer packet).2.2.1
    · exact sent

theorem sendFresh_cases (r : Radio) (peer : NodeId) (packet : Message) :
    (∃ s id, r.sendFresh peer packet = (s, .ok id) ∧ r.Sent peer { packet with id } s true) ∨
      ∃ s e, r.sendFresh peer packet = (s, .error e) ∧ r.Takes s [] := by
  have sent := (r.drawId.1.send_sent peer { packet with id := r.drawId.2 }).before (r := r) rfl
  unfold sendFresh
  simp only
  split
  · next done =>
    rw [done] at sent
    exact .inl ⟨_, _, rfl, sent⟩
  · next failed =>
    rw [failed] at sent
    cases sent with
    | failed takes => exact .inr ⟨_, _, rfl, takes⟩

theorem respond_cases (r : Radio) (m : Received) (response : Message) :
    (∃ s acknowledged packet, r.respond m response =
        (s, { m with acknowledged, answered := true }, .ok ()) ∧
        response.setToken m.packet.token = .ok packet ∧
        r.Sent m.peer (r.addressResponse m packet).2 s true) ∨
      ∃ s e, r.respond m response = (s, m, .error e) ∧ r.Takes s [] := by
  unfold respond
  split
  · exact .inr ⟨_, _, rfl, takes_of_same rfl⟩
  next packet marked =>
  have sent := ((r.addressResponse m packet).1.send_sent m.peer
    (r.addressResponse m packet).2).before (r := r) (r.addressResponse_quiet m packet).transmissions
  simp only
  split
  · next failed =>
    rw [failed] at sent
    cases sent with
    | failed takes => exact .inr ⟨_, _, rfl, takes⟩
  · next done =>
    rw [done] at sent
    exact .inl ⟨_, _, packet, rfl, marked, sent.later (storeResponse_frame _ _ _ _).2⟩

end Radio

/-! ## Notifications -/

namespace Observable

structure Notifies (s : Observable) (token : ShortBytes) (packet : Message) : Prop where
  canonical : packet.Canonical
  code : packet.code = Code.content
  token : packet.token = token
  payload : s.renderer.payload? s.status = some packet.payload

variable {s : Observable} {token : ShortBytes} {packet : Message}

theorem Notifies.addressed (h : s.Notifies token packet) (kind : MessageKind) (id : MessageId) :
    s.Notifies token { packet with kind, id } :=
  ⟨h.canonical.of_same_content rfl rfl rfl rfl, h.code, h.token, h.payload⟩

theorem Notifies.setToken (h : s.Notifies token packet) {marked : Message}
    (done : packet.setToken token = .ok marked) : s.Notifies token marked := by
  obtain ⟨read, differs⟩ := h.canonical.token_setToken done
  exact ⟨h.canonical.setToken done, differs.code.trans h.code, read,
    by rw [differs.payload]; exact h.payload⟩

/-- A notification is filled step by step, the age left out if it is the usual one. -/
theorem notification_steps (done : s.notification token = .ok packet) :
    ∃ payload, ∃ numbered marked aged : Message,
      s.renderer.payload? s.status = some payload ∧
      { Packet.fresh 128 with code := Code.content }.setObserve s.counter = .ok numbered ∧
      numbered.setToken token = .ok marked ∧
      (aged = marked ∨ marked.setMaxAge s.maxAge = .ok aged) ∧
      aged.setPayload payload = .ok packet := by
  unfold notification at done
  split at done
  · cases done
  next payload rendered =>
  split at done
  case h_2 => cases done
  next filled =>
  cases done
  obtain ⟨numbered, observed, filled⟩ := bind_eq_ok.mp filled
  obtain ⟨marked, tokened, filled⟩ := bind_eq_ok.mp filled
  split at filled
  · exact ⟨payload, numbered, marked, marked, rendered, observed, tokened, .inl rfl, filled⟩
  · obtain ⟨aged, stated, filled⟩ := bind_eq_ok.mp filled
    exact ⟨payload, numbered, marked, aged, rendered, observed, tokened, .inr stated, filled⟩

theorem blank_canonical :
    ({ Packet.fresh 128 with code := Code.content } : Message).Canonical :=
  (Packet.fresh_canonical 128).of_same_content rfl rfl rfl rfl

theorem notification_notifies (done : s.notification token = .ok packet) :
    s.Notifies token packet := by
  obtain ⟨payload, numbered, marked, aged, rendered, observed, tokened, stated, filled⟩ :=
    notification_steps done
  obtain ⟨canonical, counted, -⟩ := blank_canonical.setOption_apart observed (by decide)
  obtain ⟨read, differs⟩ := canonical.token_setToken tokened
  replace canonical := canonical.setToken tokened
  have aging : aged.Canonical ∧ aged.code = marked.code ∧ aged.token = marked.token := by
    rcases stated with rfl | stated
    · exact ⟨canonical, rfl, rfl⟩
    · exact canonical.setOption_apart stated (by decide)
  obtain ⟨kept, sameCode, sameToken⟩ := aging
  have code : aged.code = Code.content := sameCode.trans (differs.code.trans counted)
  have whole := kept.setPayload filled
  obtain ⟨-, rfl⟩ := Packet.setPayload_ok filled
  exact ⟨whole, code, sameToken.trans read, rendered⟩

/-- At most one message is taken: the notification that was built, under an id of its own. -/
theorem sendNotification_sent (s : Observable) (r : Radio) (o : Observer) :
    (∃ r' t packet kind, s.notification o.token = .ok packet ∧
        s.sendNotification r o = (r', .ok t.packet.id) ∧ t.peer = o.peer ∧
        t.packet = { packet with kind, id := t.packet.id } ∧ r.Takes r' [t]) ∨
      ∃ r' e, s.sendNotification r o = (r', .error e) ∧ r.Takes r' [] := by
  unfold sendNotification
  split
  · exact .inr ⟨_, _, rfl, Radio.takes_of_same rfl⟩
  next packet built =>
  simp only
  generalize (if o.confirmable s.confirmable then MessageKind.confirmable else _) = kind
  rcases r.sendFresh_cases o.peer { packet with kind } with
    ⟨r', id, done, sent⟩ | ⟨r', e, failed, takes⟩
  · cases sent with
    | through t goes holds takes =>
      exact .inl ⟨r', t, packet, kind, built, by rw [done, holds], goes, by rw [holds], takes⟩
  · exact .inr ⟨r', e, failed, takes⟩

theorem sendNotification_cases (s : Observable) (r : Radio) (o : Observer) :
    (∃ r' t, s.sendNotification r o = (r', .ok t.packet.id) ∧ t.peer = o.peer ∧
        s.Notifies o.token t.packet ∧ r.Takes r' [t]) ∨
      ∃ r' e, s.sendNotification r o = (r', .error e) ∧ r.Takes r' [] := by
  rcases s.sendNotification_sent r o with
    ⟨r', t, packet, kind, built, done, goes, holds, takes⟩ | failed
  · refine .inl ⟨r', t, done, goes, ?_, takes⟩
    rw [holds]
    exact (notification_notifies built).addressed kind t.packet.id
  · exact .inr failed

/-! ## Telling observers -/

def told (s : Observable) (now : Nat) (o : Observer) (id : MessageId) : Observer :=
  { o with lastId := id, timestamp := now, lastValue := s.status }

/-- The table after notifications, and those that the network took. -/
inductive Tells (s : Observable) (now : Nat) :
    List Observer → List Transmission → List Observer → Prop
  | nil : Tells s now [] [] []
  | kept (o : Observer) {rest rest' : List Observer} {taken : List Transmission}
      (later : Tells s now rest taken rest') : Tells s now (o :: rest) taken (o :: rest')
  | told (o : Observer) {t : Transmission} (goes : t.peer = o.peer)
      (notifies : s.Notifies o.token t.packet) {rest rest' : List Observer}
      {taken : List Transmission} (later : Tells s now rest taken rest') :
      Tells s now (o :: rest) (t :: taken) (s.told now o t.packet.id :: rest')

theorem notifyEach_tells (s : Observable) (now : Nat) (unconditionally : Bool) (r : Radio)
    (observers : List Observer) :
    ∃ taken, r.Takes (s.notifyEach now unconditionally r observers).1 taken ∧
      s.Tells now observers taken (s.notifyEach now unconditionally r observers).2.1 := by
  induction observers generalizing r with
  | nil => exact ⟨[], Radio.takes_of_same rfl, .nil⟩
  | cons o rest ih =>
    unfold notifyEach
    split
    · unfold notify
      rcases s.sendNotification_cases r o with
        ⟨r', t, sent, goes, notifies, first⟩ | ⟨r', e, failed, first⟩
      · obtain ⟨taken, takes, tells⟩ := ih r'
        refine ⟨t :: taken, ?_⟩
        simp only [sent]
        split <;> exact ⟨first.trans takes, .told o goes notifies tells⟩
      · obtain ⟨taken, takes, tells⟩ := ih (r'.note .warn
          ("notifying " ++ toString o.peer ++ " failed: " ++ e.inspect))
        refine ⟨taken, ?_⟩
        simp only [failed]
        split <;> exact ⟨first.trans (takes.before rfl), .kept o tells⟩
    · obtain ⟨taken, takes, tells⟩ := ih r
      exact ⟨taken, takes, .kept o tells⟩

theorem Tells.peers {now : Nat} {observers observers' : List Observer} {taken : List Transmission}
    (h : s.Tells now observers taken observers') :
    observers'.map (·.peer) = observers.map (·.peer) ∧
      (taken.map (·.peer)).Sublist (observers.map (·.peer)) := by
  induction h with
  | nil => exact ⟨rfl, .slnil⟩
  | kept o later ih => exact ⟨congrArg (o.peer :: ·) ih.1, ih.2.cons _⟩
  | told o goes notifies later ih =>
    refine ⟨congrArg (o.peer :: ·) ih.1, ?_⟩
    rw [List.map_cons, List.map_cons, goes]
    exact ih.2.cons_cons _

/-- Every observer is sent a notification in order, whatever its conditions are; the table after
that, and what the network took. -/
inductive Informs (s : Observable) (now : Nat) :
    Radio → List Observer → List Transmission → List Observer → Radio → Prop
  | nil (r : Radio) : Informs s now r [] [] [] r
  | taken (o : Observer) {r r₁ r' : Radio} {t : Transmission}
      (sent : s.sendNotification r o = (r₁, .ok t.packet.id)) (goes : t.peer = o.peer)
      (notifies : s.Notifies o.token t.packet) (takes : r.Takes r₁ [t])
      {rest rest' : List Observer} {taken : List Transmission}
      (later : Informs s now r₁ rest taken rest' r') :
      Informs s now r (o :: rest) (t :: taken) (s.told now o t.packet.id :: rest') r'
  | failed (o : Observer) {r r₁ r' : Radio} {e : RuntimeError}
      (sent : s.sendNotification r o = (r₁, .error e)) (takes : r.Takes r₁ [])
      {rest rest' : List Observer} {taken : List Transmission}
      (later : Informs s now (r₁.note .warn
        ("notifying " ++ toString o.peer ++ " failed: " ++ e.inspect)) rest taken rest' r') :
      Informs s now r (o :: rest) taken (o :: rest') r'

theorem notifyEach_informs (s : Observable) (now : Nat) (r : Radio) (observers : List Observer) :
    ∃ taken, s.Informs now r observers taken (s.notifyEach now true r observers).2.1
      (s.notifyEach now true r observers).1 := by
  induction observers generalizing r with
  | nil => exact ⟨[], .nil r⟩
  | cons o rest ih =>
    unfold notifyEach notify
    rw [Bool.true_or, if_pos rfl]
    rcases s.sendNotification_cases r o with
      ⟨r₁, t, sent, goes, notifies, takes⟩ | ⟨r₁, e, sent, takes⟩
    · obtain ⟨taken, later⟩ := ih r₁
      refine ⟨t :: taken, ?_⟩
      simp only [sent]
      split <;> exact .taken o sent goes notifies takes later
    · obtain ⟨taken, later⟩ := ih (r₁.note .warn
        ("notifying " ++ toString o.peer ++ " failed: " ++ e.inspect))
      refine ⟨taken, ?_⟩
      simp only [sent]
      split <;> exact .failed o sent takes later

end Observable
end CoapNode
