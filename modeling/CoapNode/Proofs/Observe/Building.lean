import CoapNode.Proofs.Observe.Table
import CoapNode.Proofs.Packet.Fields
/-! The notifications that a resource builds, whether or not they are sent. Each carries the
resource's count as it is then. What the network takes of a resource are notifications that were
built, in the same order. -/
namespace CoapNode

/-! ## Reading the number -/

namespace Packet

variable {capacity : Nat} {p q : Packet capacity} {n : OptionNumber}

theorem Canonical.observe_eq (h : p.Canonical) :
    p.observe = match optionsAt OptionNumber.observe p.options with
      | [] => .error .optionNotSet
      | o :: _ => .ok (bigEndian o.value) := by
  have visible : isFencepost OptionNumber.observe = false := by decide
  have format : OptionNumber.observe.format = .uint := by decide
  rw [observe, h.readUInt_of_segments format (h.segments_eq visible)]
  cases optionsAt OptionNumber.observe p.options <;> rfl

theorem Canonical.observe_setObserve (h : p.Canonical) {number : UInt32}
    (done : p.setObserve number = .ok q) : q.observe = .ok number := by
  have left := h.setOption_leaves done
  have format : OptionNumber.observe.format = .uint := by decide
  apply left.canonical.readUInt_minimal format
  rw [left.segments, OptionNumber.written_uint]

theorem DiffersAt.observe (h : p.Canonical) (h' : q.Canonical) (differs : p.DiffersAt q n)
    (other : n ≠ .observe) : q.observe = p.observe := by
  rw [h.observe_eq, h'.observe_eq, differs.others _ (Ne.symm other)]

/-- What a notification tells about the status: the number, and the payload. -/
def announcement (p : Packet capacity) : Except CodecError UInt32 × List UInt8 :=
  (p.observe, p.payload)

end Packet

namespace Observable

variable {s : Observable} {token : ShortBytes} {packet : Message}

theorem notification_observe (built : s.notification token = .ok packet) :
    packet.observe = .ok s.counter := by
  obtain ⟨payload, numbered, marked, aged, -, observed, tokened, stated, filled⟩ :=
    notification_steps built
  have canonical := blank_canonical.setOption observed
  have canonical' := canonical.setToken tokened
  have number : marked.observe = .ok s.counter :=
    ((canonical.token_setToken tokened).2.observe canonical canonical' (by decide)).trans
      (blank_canonical.observe_setObserve observed)
  -- neither the age nor the payload touches the number
  have same : aged.observe = marked.observe := by
    rcases stated with rfl | stated
    · rfl
    · obtain ⟨-, -, differs, -⟩ := canonical'.setOption_content stated
      exact differs.observe canonical' (canonical'.setOption stated) (by decide)
  obtain ⟨-, rfl⟩ := Packet.setPayload_ok filled
  exact same.trans number

end Observable

/-! ## What is built -/

/-- The notification built for one observer, if it is to be told. -/
def Observable.buildsFor (s : Observable) (now : Nat) (unconditionally : Bool) (o : Observer) :
    List Message :=
  if unconditionally || o.due s.status now then (s.notification o.token).toOption.toList else []

/-- The notifications built for the observers, in order. Without a readable clock there are none. -/
def Observable.builds (s : Observable) (r : Radio) (unconditionally : Bool) : List Message :=
  match r.now with
  | .error _ => []
  | .ok now => s.observers.flatMap (s.buildsFor now unconditionally)

namespace Visit

/-- The resource as it publishes in a visit, if it does, and whether everybody is told: its count
is one more, for a new status or for a refresh that is not left to a later one. -/
def publishes? (s : Observable) : Visit → Option (Observable × Bool)
  | call _ (.setStatus v) => some ({ s with status := v, counter := s.counter + 1 }, false)
  | refresh _ =>
    if 0 < s.pendingRefreshes - 1 || s.observers.isEmpty then none
    else some ({ s with
      pendingRefreshes := s.pendingRefreshes - 1, counter := s.counter + 1 }, true)
  | _ => none

/-- The notifications built in a visit: one that is to answer a request to observe, or those for
the observers. -/
def built (s : Observable) : Visit → List Message
  | offer n m =>
    match n.radio.now, s.registration? m with
    | .ok _, some _ => (s.notification m.packet.token).toOption.toList
    | _, _ => []
  | v => (v.publishes? s).elim [] fun (t, unconditionally) => t.builds v.radio unconditionally

def increments (s : Observable) (v : Visit) : Nat := if (v.publishes? s).isSome then 1 else 0

end Visit

namespace Publisher

/-- Every notification built in the turns, the oldest first. -/
def built (p : Publisher) : List Turn → List Message
  | [] => []
  | t :: rest => (p.visit? t).elim [] (·.built p.resource) ++ (p.step t).built rest

def increments (p : Publisher) : List Turn → Nat
  | [] => 0
  | t :: rest => (p.visit? t).elim 0 (·.increments p.resource) + (p.step t).increments rest

end Publisher

/-! ## What is sent -/

namespace Observable

variable {s : Observable}

theorem sendNotification_announces (s : Observable) (r : Radio) (o : Observer) :
    ∃ taken, r.Takes (s.sendNotification r o).1 taken ∧
      (taken.map (·.packet.announcement)).Sublist
        ((s.notification o.token).toOption.toList.map (·.announcement)) := by
  rcases s.sendNotification_sent r o with
    ⟨r', t, packet, kind, built, done, -, holds, takes⟩ | ⟨r', e, failed, takes⟩
  · refine ⟨[t], by rw [done]; exact takes, ?_⟩
    rw [List.map_singleton, holds, built]
    exact List.Sublist.refl _
  · exact ⟨[], by rw [failed]; exact takes, List.nil_sublist _⟩

theorem notify_announces (s : Observable) (now : Nat) (r : Radio) (o : Observer) :
    ∃ taken, r.Takes (s.notify now r o).1 taken ∧ (taken.map (·.packet.announcement)).Sublist
      ((s.notification o.token).toOption.toList.map (·.announcement)) := by
  obtain ⟨taken, takes, tells⟩ := s.sendNotification_announces r o
  unfold notify
  split
  · next done =>
    rw [done] at takes
    exact ⟨taken, takes, tells⟩
  · next failed =>
    rw [failed] at takes
    exact ⟨taken, takes.later rfl, tells⟩

theorem notifyEach_announces (s : Observable) (now : Nat) (unconditionally : Bool) (r : Radio)
    (observers : List Observer) :
    ∃ taken, r.Takes (s.notifyEach now unconditionally r observers).1 taken ∧
      (taken.map (·.packet.announcement)).Sublist
        ((observers.flatMap (s.buildsFor now unconditionally)).map (·.announcement)) := by
  induction observers generalizing r with
  | nil => exact ⟨[], Radio.takes_of_same rfl, List.nil_sublist _⟩
  | cons o rest ih =>
    rw [List.flatMap_cons, List.map_append, buildsFor]
    unfold notifyEach
    split
    · obtain ⟨first, takes, tells⟩ := s.notify_announces now r o
      obtain ⟨later, takes', tells'⟩ := ih (s.notify now r o).1
      refine ⟨first ++ later, ?_, by rw [List.map_append]; exact tells.append tells'⟩
      simp only
      split <;> exact takes.trans takes'
    · obtain ⟨later, takes, tells⟩ := ih r
      exact ⟨later, takes, tells⟩

theorem notifyObservers_announces (s : Observable) (r : Radio) (unconditionally : Bool) :
    ∃ taken, r.Takes (s.notifyObservers r unconditionally).2.1 taken ∧
      (taken.map (·.packet.announcement)).Sublist
        ((s.builds r unconditionally).map (·.announcement)) := by
  unfold notifyObservers builds
  cases r.now with
  | error e => exact ⟨[], Radio.takes_of_same rfl, List.nil_sublist _⟩
  | ok now => exact s.notifyEach_announces now unconditionally r s.observers

theorem respond_announces (s : Observable) (r : Radio) (m : Received) {packet : Message}
    (built : s.notification m.packet.token = .ok packet) :
    ∃ taken, r.Takes (r.respond m packet).1 taken ∧
      (taken.map (·.packet.announcement)).Sublist [packet.announcement] := by
  rcases r.respond_cases m packet with
    ⟨r', acknowledged, marked, whole, marks, sent⟩ | ⟨r', e, failed, takes⟩
  · cases sent with
    | through t goes holds takes =>
      obtain ⟨kind, id, content⟩ := r.addressResponse_content m marked
      have canonical := (notification_notifies built).canonical
      have differs := (canonical.token_setToken marks).2
      have kept : marked.announcement = packet.announcement :=
        Prod.ext (differs.observe canonical (canonical.setToken marks) (by decide)) differs.payload
      have same : t.packet.announcement = packet.announcement := by
        rw [holds, content]
        exact kept
      refine ⟨[t], by rw [whole]; exact takes, ?_⟩
      rw [List.map_singleton, same]
  · exact ⟨[], by rw [failed]; exact takes, List.nil_sublist _⟩

theorem registerObserver_announces (s : Observable) (n : Node) (m : Received)
    (conditions : List Condition) (room : s.hasRoom m.peer = true) :
    ∃ taken, n.radio.Takes (s.registerObserver n m conditions).2.1.radio taken ∧
      (taken.map (·.packet.announcement)).Sublist
        ((s.notification m.packet.token).toOption.toList.map (·.announcement)) := by
  have admits := s.registerObserver_admits n m conditions
  generalize s.registerObserver n m conditions = outcome at admits ⊢
  cases admits with
  | unclocked => exact ⟨[], Radio.takes_of_same rfl, List.nil_sublist _⟩
  | full _ full =>
    rw [room] at full
    cases full
  | unbuilt => exact ⟨[], Radio.takes_of_same rfl, List.nil_sublist _⟩
  | unsent _ _ _ failed => exact ⟨[], takes_of_unsent failed, List.nil_sublist _⟩
  | @entered now packet r _ _ _ built done =>
    obtain ⟨taken, takes, tells⟩ := s.respond_announces n.radio m built
    rw [done] at takes
    rw [built]
    exact ⟨taken, takes.later (s.enter_frame r (s.entry m now conditions)).2.2, tells⟩

theorem accepts_of_registration? {m : Received} {conditions : List Condition}
    (registers : s.registration? m = some conditions) : s.endpoint.accepts m.packet = true := by
  unfold registration? at registers
  split at registers
  · next wanted =>
    simp only [Bool.and_eq_true] at wanted
    exact wanted.1.1.1
  · cases registers

/-- A request to observe is answered with the notification, or with something else that is none. -/
theorem offer_announces (s : Observable) (n : Node) {m : Received} {conditions : List Condition}
    (registers : s.registration? m = some conditions) :
    ∃ taken, n.radio.Takes (s.offer n m).2.1.radio taken ∧
      ((taken.filter (·.packet.code == Code.content)).map (·.packet.announcement)).Sublist
        ((s.notification m.packet.token).toOption.toList.map (·.announcement)) := by
  obtain ⟨get, observe, room, parsed, kept⟩ := registration?_eq_some registers
  have wants : ¬ (!m.packet.observe.toBool || conditions.any (·.kind == .cancellation)) = true := by
    simpa [observe] using kept
  obtain ⟨taken, takes, tells⟩ := s.registerObserver_announces n m conditions room
  have notices : ((taken.filter (·.packet.code == Code.content)).map
      (·.packet.announcement)).Sublist _ := (List.filter_sublist.map _).trans tells
  rw [offer, accepts_of_registration? registers, if_neg (by decide), if_pos get]
  simp only [receiveGet_of_wants parsed wants]
  generalize s.registerObserver n m conditions = outcome at takes ⊢
  obtain ⟨s', n', m', e | _⟩ := outcome
  · obtain ⟨replied, takes', others⟩ := s'.afterFailure_takes m.peer n' m' e
    have silent : replied.filter (·.packet.code == Code.content) = [] :=
      List.filter_eq_nil_iff.mpr (by simpa using others)
    refine ⟨taken ++ replied, takes.trans takes', ?_⟩
    rw [List.filter_append, silent, List.append_nil]
    exact notices
  · exact ⟨taken, takes, notices⟩

end Observable

namespace Visit

variable {s : Observable} {v : Visit}

theorem notices_of_takes {taken : List Transmission} (offers : ∀ n m, v ≠ .offer n m)
    (takes : v.radio.Takes (v.done s).2 taken) :
    ((v.notices s).map (·.packet.announcement)).Sublist (taken.map (·.packet.announcement)) := by
  have told : ∀ now, ((((v.done s).2.takenSince v.radio).map fun t =>
      (⟨t.peer, t.packet, (v.done s).1.status, now, none⟩ : Notice)).map
        (·.packet.announcement)).Sublist (taken.map (·.packet.announcement)) := fun now => by
    rw [takes.since, List.map_map]
    exact List.Sublist.refl _
  cases v with
  | offer n m => exact absurd rfl (offers n m)
  | _ =>
    unfold notices
    simp only
    split
    · exact List.nil_sublist _
    · exact told _

theorem silent_announces (offers : ∀ n m, v ≠ .offer n m)
    (same : (v.done s).2.transmissions = v.radio.transmissions) :
    ((v.notices s).map (·.packet.announcement)).Sublist ((v.built s).map (·.announcement)) := by
  rw [Table.notices_silent offers same]
  exact List.nil_sublist _

theorem published_announces (t : Observable) (unconditionally : Bool) (log : List LogRecord)
    (offers : ∀ n m, v ≠ .offer n m) (published : v.publishes? s = some (t, unconditionally))
    (done : (v.done s).2 = ((t.notifyObservers v.radio unconditionally).1.scheduleRefresh
      { (t.notifyObservers v.radio unconditionally).2.1 with log }).2) :
    ((v.notices s).map (·.packet.announcement)).Sublist ((v.built s).map (·.announcement)) := by
  obtain ⟨taken, takes, tells⟩ := t.notifyObservers_announces v.radio unconditionally
  have sent := (t.published_frame v.radio unconditionally log).2.2.2
  rw [← done] at sent
  have built : v.built s = t.builds v.radio unconditionally := by
    cases v with
    | offer n m => exact absurd rfl (offers n m)
    | _ => simp only [Visit.built, published, Option.elim_some]
  rw [built]
  exact (notices_of_takes offers (takes.later sent)).trans tells

theorem notices_announce (s : Observable) (v : Visit) :
    ((v.notices s).map (·.packet.announcement)).Sublist
      ((v.built s).map (·.announcement)) := by
  cases v with
  | offer n m =>
    simp only [notices, built]
    cases registers : s.registration? m with
    | none =>
      cases n.radio.now <;> exact List.nil_sublist _
    | some conditions =>
      cases n.radio.now with
      | error e => exact List.nil_sublist _
      | ok now =>
        obtain ⟨taken, takes, tells⟩ := s.offer_announces n registers
        simp only [takes.since, List.map_map]
        exact tells
  | refresh r =>
    rcases s.timerFired_cases r with ⟨-, idle⟩ | ⟨last, watched, log, told⟩
    · exact silent_announces (by simp) (by rw [done, idle]; rfl)
    · refine published_announces _ true log (by simp) ?_ (congrArg Prod.snd told)
      exact if_neg (by simp [last, watched])
  | forget r peer token => exact silent_announces (by simp) (s.forget_transmissions r peer token)
  | disown r peer id =>
    exact silent_announces (by simp) (s.forgetNotified_idle r peer id).transmissions
  | call r c =>
    cases c with
    | setStatus status => exact published_announces _ false _ (by simp) rfl rfl
    | shutdown => exact silent_announces (by simp) (s.endpoint.shutdown_idle r).transmissions
    | register => exact silent_announces (by simp) (s.endpoint.attach_idle r).transmissions
    | _ => exact silent_announces (by simp) rfl

end Visit

namespace Publisher

/-- The network takes the notifications in the order in which they are built. -/
theorem ledger_announces (p : Publisher) (turns : List Turn) :
    ((p.ledger turns).map (·.packet.announcement)).Sublist
      ((p.built turns).map (·.announcement)) := by
  induction turns generalizing p with
  | nil => exact List.nil_sublist _
  | cons t rest ih =>
    rw [ledger, Publisher.built, List.map_append, List.map_append]
    refine List.Sublist.append ?_ (ih _)
    cases p.visit? t with
    | none => exact List.nil_sublist _
    | some v => exact v.notices_announce p.resource

end Publisher
end CoapNode
