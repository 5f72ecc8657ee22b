import CoapNode.Proofs.Observe.Building
import CoapNode.Proofs.Observe.Fitting
import CoapNode.Proofs.Radio.Sending
/-! Publishing a status. Every observer whose conditions hold is sent one notification, in the order
of the table and whatever became of those before; the table, the history of unacknowledged messages
and the events asked for follow from what the network took of them. -/
namespace CoapNode

def MessageId.after (i : MessageId) (count : Nat) : MessageId := ⟨i.val + UInt16.ofNat count⟩

theorem MessageId.after_zero (i : MessageId) : i.after 0 = i :=
  congrArg MessageId.mk (UInt16.add_zero _)

theorem MessageId.after_after (i : MessageId) (m n : Nat) :
    (i.after m).after n = i.after (m + n) := by
  simp only [after, UInt16.ofNat_add, UInt16.add_assoc]

theorem MessageId.after_inj {i : MessageId} {m n : Nat} (small : m < UInt16.size)
    (small' : n < UInt16.size) (same : i.after m = i.after n) : m = n := by
  have step : UInt16.ofNat m = UInt16.ofNat n := by simpa [after] using same
  have equal := congrArg UInt16.toNat step
  rwa [UInt16.toNat_ofNat_of_lt' small, UInt16.toNat_ofNat_of_lt' small'] at equal

/-! ## Attempts to send -/

/-- What an attempt to send a message comes to. -/
inductive Attempt where
  /-- There was nothing to send. -/
  | unbuilt
  /-- The history of unacknowledged messages was full. -/
  | unsent (m : Message)
  /-- The network was offered the message. -/
  | offered (t : Transmission)

namespace Attempt

/-- The message that there was to send. -/
def message? : Attempt → Option Message
  | unbuilt => none
  | unsent m => some m
  | offered t => some t.packet

def transmission? : Attempt → Option Transmission
  | offered t => some t
  | _ => none

def taken? (a : Attempt) : Option Message :=
  (a.transmission?.filter (·.refusal.isNone)).map (·.packet)

def built (attempts : List Attempt) : List Message := attempts.filterMap (·.message?)

def offers (attempts : List Attempt) : List Transmission := attempts.filterMap (·.transmission?)

def entering (attempts : List Attempt) : List Transmission :=
  (offers attempts).filter (·.enters)

section

variable (xs ys : List Attempt)

theorem built_append : built (xs ++ ys) = built xs ++ built ys := List.filterMap_append

theorem offers_append : offers (xs ++ ys) = offers xs ++ offers ys := List.filterMap_append

theorem entering_append : entering (xs ++ ys) = entering xs ++ entering ys := by
  rw [entering, offers_append, List.filter_append, entering, entering]

end

/-- What may become of a message while so many wait for an acknowledgement. -/
inductive Goes (peer : NodeId) (m : Message) (waiting : Nat) : Attempt → Prop
  | unsent (kind : m.kind = .confirmable) (full : sentHistory ≤ waiting) :
      Goes peer m waiting (.unsent m)
  | offered (refusal : Option Nat) (room : m.kind = .confirmable → waiting < sentHistory) :
      Goes peer m waiting (.offered ⟨peer, m, m.datagram, .sending m.id, refusal⟩)

end Attempt

namespace Radio

open Attempt (built offers entering)

/-- The second radio is the first after these attempts. What the network took of them was
delivered, and is kept and asked to be sent again if it is confirmable. -/
structure Attempts (r s : Radio) (attempts : List Attempt) : Prop where
  config : s.config = r.config
  possible : s.impossibleDelay = r.impossibleDelay
  nextId : s.nextId = r.nextId.after (built attempts).length
  transmissions : s.transmissions = r.transmissions ++ offers attempts
  delivered : s.network.delivered =
    r.network.delivered ++ (offers attempts).flatMap (·.delivered)
  history : (s.unacknowledged.map fun e => (e.peer, e.packet)) =
    (r.unacknowledged.map fun e => (e.peer, e.packet)) ++
      (entering attempts).map fun t => (t.peer, t.packet)
  events : s.scheduled.map (·.event) =
    r.scheduled.map (·.event) ++ (entering attempts).map fun t => .retransmit t.packet.id

variable {r s t : Radio} {xs ys : List Attempt}

theorem Attempts.refl (r : Radio) : r.Attempts r [] where
  config := rfl
  possible := rfl
  nextId := r.nextId.after_zero.symm
  transmissions := (List.append_nil _).symm
  delivered := (List.append_nil _).symm
  history := (List.append_nil _).symm
  events := (List.append_nil _).symm

theorem Attempts.trans (h : r.Attempts s xs) (h' : s.Attempts t ys) :
    r.Attempts t (xs ++ ys) where
  config := h'.config.trans h.config
  possible := h'.possible.trans h.possible
  nextId := by
    rw [h'.nextId, h.nextId, MessageId.after_after, Attempt.built_append, List.length_append]
  transmissions := by
    rw [h'.transmissions, h.transmissions, Attempt.offers_append, List.append_assoc]
  delivered := by
    rw [h'.delivered, h.delivered, Attempt.offers_append, List.flatMap_append, List.append_assoc]
  history := by
    rw [h'.history, h.history, Attempt.entering_append, List.map_append, List.append_assoc]
  events := by
    rw [h'.events, h.events, Attempt.entering_append, List.map_append, List.append_assoc]

theorem Attempts.waiting (h : r.Attempts s xs) :
    s.unacknowledged.length = r.unacknowledged.length + (entering xs).length := by
  simpa using congrArg List.length h.history

theorem Attempts.note (h : r.Attempts s xs) (severity : Severity) (text : String) :
    r.Attempts (s.note severity text) xs := { h with }

theorem Offered.attempts {x : Transmission} (offered : r.drawId.1.Offered s [x])
    (outside : x.enters = false) : r.Attempts s [.offered x] := by
  obtain ⟨log, outcomes, rfl⟩ := offered
  have none : entering [.offered x] = [] := List.filter_eq_nil_iff.mpr (by simp [offers,
    Attempt.transmission?, outside])
  exact {
    config := rfl
    possible := rfl
    nextId := rfl
    transmissions := rfl
    delivered := rfl
    history := by rw [none]; exact (List.append_nil _).symm
    events := by rw [none]; exact (List.append_nil _).symm }

theorem Offered.attempts_tracked {x : Transmission} (offered : r.drawId.1.Offered s [x])
    (ordered : r.Ordered) (enters : x.enters = true) :
    r.Attempts (s.track x.peer x.packet) [.offered x] := by
  obtain ⟨log, outcomes, rfl⟩ := offered
  have one : entering [.offered x] = [x] := List.filter_eq_self.mpr (by simp [offers,
    Attempt.transmission?, enters])
  obtain ⟨backoff, random, -, tracked⟩ := track_of_ordered (r := { r.drawId.1 with
    log
    network := ⟨outcomes, r.drawId.1.network.delivered ++ [x].flatMap (·.delivered)⟩
    transmissions := r.drawId.1.transmissions ++ [x] }) ordered x.peer x.packet
  rw [tracked]
  exact {
    config := rfl
    possible := rfl
    nextId := rfl
    transmissions := rfl
    delivered := rfl
    history := by rw [one]; exact List.map_append
    events := by rw [one]; exact List.map_append }

section

variable {peer : NodeId} {packet : Message}

theorem sendFresh_of_ok (sent : r.drawId.1.send peer { packet with id := r.nextId } = (s, .ok ())) :
    r.sendFresh peer packet = (s, .ok r.nextId) := by
  unfold sendFresh
  simp only
  rw [show r.drawId.1.send peer { packet with id := r.drawId.2 } = _ from sent]
  rfl

theorem sendFresh_of_error {e : RuntimeError}
    (sent : r.drawId.1.send peer { packet with id := r.nextId } = (s, .error e)) :
    r.sendFresh peer packet = (s, .error e) := by
  unfold sendFresh
  simp only
  rw [show r.drawId.1.send peer { packet with id := r.drawId.2 } = _ from sent]

end

theorem sendFresh_attempts (ordered : r.Ordered) (peer : NodeId) (packet : Message) :
    let m := { packet with id := r.nextId }
    m.serializedLength ≤ datagramBuffer → ∃ s a, r.Attempts s [a] ∧
      Attempt.Goes peer m r.unacknowledged.length a ∧
      ((a.taken? = some m ∧ r.sendFresh peer packet = (s, .ok m.id)) ∨
        (a.taken? = none ∧ ∃ e, r.sendFresh peer packet = (s, .error e))) := by
  intro m fits
  by_cases room : r.drawId.1.HasRoom m
  case neg =>
    obtain ⟨text, sent⟩ := send_of_full peer room
    obtain ⟨kind, full⟩ := not_hasRoom_iff.mp room
    exact ⟨r.drawId.1.note .warn text, .unsent m, { Attempts.refl r with nextId := rfl },
      .unsent kind full, .inr ⟨rfl, _, sendFresh_of_error sent⟩⟩
  case pos =>
    obtain ⟨s, offered, sent⟩ := send_of_fits peer room fits
    generalize r.drawId.1.refusal = refusal at offered sent
    have goes : Attempt.Goes peer m r.unacknowledged.length _ := .offered refusal room
    cases refusal with
    | some code =>
      exact ⟨s, _, offered.attempts (by simp [Transmission.enters]), goes,
        .inr ⟨rfl, _, sendFresh_of_error sent⟩⟩
    | none =>
      by_cases kind : m.kind = .confirmable
      · simp only [if_pos kind] at sent
        exact ⟨_, _, offered.attempts_tracked ordered (by simp [Transmission.enters, kind]), goes,
          .inl ⟨rfl, sendFresh_of_ok sent⟩⟩
      · simp only [if_neg kind] at sent
        exact ⟨_, _, offered.attempts (by simp [Transmission.enters, kind]), goes,
          .inl ⟨rfl, sendFresh_of_ok sent⟩⟩

end Radio

/-! ## One observer -/

/-- An observer when a status is published, and the attempt to notify it if there was one. -/
structure Pass where
  observer : Observer
  attempt : Option Attempt

namespace Pass

def attempts (passes : List Pass) : List Attempt := passes.filterMap (·.attempt)

theorem attempts_cons (p : Pass) (passes : List Pass) :
    attempts (p :: passes) = p.attempt.toList ++ attempts passes := by
  cases attempt : p.attempt <;> simp [attempts, attempt]

theorem attempts_last (passes : List Pass) (p : Pass) :
    attempts (passes ++ [p]) = attempts passes ++ p.attempt.toList := by
  rw [attempts, List.filterMap_append, ← attempts, ← attempts, attempts_cons]
  exact congrArg _ (List.append_nil _)

end Pass

namespace Observable

/-- The message tells the observer the status, under this id. -/
structure Announces (s : Observable) (o : Observer) (id : MessageId) (m : Message) : Prop
    extends s.Notifies o.token m where
  id : m.id = id
  number : m.observe = .ok s.counter
  options : m.options = s.noticeOptions o.token
  kind : m.kind = if (o.conditions ≠ [] ∧ ∃ c ∈ o.conditions, c.confirmable = true) ∨
      (o.conditions = [] ∧ s.confirmable = true) then .confirmable else .nonConfirmable

/-- What may become of the attempt to notify an observer under an id, while so many messages wait
for an acknowledgement. -/
inductive Tries (s : Observable) (o : Observer) (id : MessageId) (waiting : Nat) : Attempt → Prop
  | unbuilt (unrendered : s.renderer.payload? s.status = none) : Tries s o id waiting .unbuilt
  | built {m : Message} {a : Attempt} (announces : s.Announces o id m)
      (goes : Attempt.Goes o.peer m waiting a) : Tries s o id waiting a

def left (s : Observable) (now : Nat) (p : Pass) : Observer :=
  match p.attempt.bind (·.taken?) with
  | some m => s.told now p.observer m.id
  | none => p.observer

variable {s : Observable} {r : Radio} {now : Nat}

theorem confirmable_iff (o : Observer) (standard : Bool) : o.confirmable standard = true ↔
    (o.conditions ≠ [] ∧ ∃ c ∈ o.conditions, c.confirmable = true) ∨
      (o.conditions = [] ∧ standard = true) := by
  unfold Observer.confirmable
  cases o.conditions with
  | nil => simp
  | cons c rest => simp

theorem notification_announces {o : Observer} {packet : Message} (id : MessageId)
    (built : s.notification o.token = .ok packet)
    (options : packet.options = s.noticeOptions o.token) :
    s.Announces o id { packet with
      kind := if o.confirmable s.confirmable then .confirmable else .nonConfirmable, id } where
  toNotifies := (notification_notifies built).addressed _ id
  id := rfl
  number := (notification_observe built :)
  options := options
  kind := by simp only [confirmable_iff]

theorem notify_attempts (s : Observable) (now : Nat) (o : Observer) (ordered : r.Ordered) :
    ∃ a, r.Attempts (s.notify now r o).1 [a] ∧
      s.Tries o r.nextId r.unacknowledged.length a ∧
      (s.notify now r o).2.1 = s.left now ⟨o, some a⟩ ∧
      ((s.notify now r o).2.2 = .ok () ↔ a.taken?.isSome) := by
  have built := s.notification_of_payload? o.token
  cases rendered : s.renderer.payload? s.status with
  | none =>
    rw [rendered] at built
    simp only [notify, sendNotification, built]
    exact ⟨.unbuilt, { Radio.Attempts.refl r with }, .unbuilt rendered, rfl,
      by simp [Attempt.taken?, Attempt.transmission?]⟩
  | some payload =>
    rw [rendered] at built
    obtain ⟨packet, built, canonical, options, -⟩ := built
    have announces := notification_announces r.nextId built options
    obtain ⟨r', a, attempts, goes, outcome⟩ := r.sendFresh_attempts ordered o.peer
      { packet with kind := if o.confirmable s.confirmable then .confirmable else .nonConfirmable }
      announces.canonical.sendable
    refine ⟨a, ?_⟩
    rcases outcome with ⟨taken, sent⟩ | ⟨refused, e, sent⟩
    · simp only [notify, sendNotification, built, sent]
      exact ⟨attempts, .built announces goes, by simp [left, taken, told], by simp [taken]⟩
    · simp only [notify, sendNotification, built, sent]
      exact ⟨attempts.note _ _, .built announces goes, by simp [left, refused], by simp [refused]⟩

/-! ## Every observer -/

open Attempt (built entering)
open Pass (attempts)

/-- The observers are passed in order. Each is notified exactly if it is wanted, whatever became of
the attempts before: they only took ids, and room in the history. -/
structure Rounds (s : Observable) (r : Radio) (wanted : Observer → Prop) (passes : List Pass) :
    Prop where
  due : ∀ p ∈ passes, p.attempt.isSome ↔ wanted p.observer
  tries : ∀ earlier p later a, passes = earlier ++ p :: later → p.attempt = some a →
    s.Tries p.observer (r.nextId.after (built (attempts earlier)).length)
      (r.unacknowledged.length + (entering (attempts earlier)).length) a

variable {wanted : Observer → Prop} {passes : List Pass}

theorem Rounds.nil : s.Rounds r wanted [] where
  due := by simp
  tries := by simp

theorem Rounds.cons {r' : Radio} {p : Pass} (due : p.attempt.isSome ↔ wanted p.observer)
    (tries : ∀ a ∈ p.attempt, s.Tries p.observer r.nextId r.unacknowledged.length a)
    (made : r.Attempts r' p.attempt.toList) (later : s.Rounds r' wanted passes) :
    s.Rounds r wanted (p :: passes) where
  due := List.forall_mem_cons.mpr ⟨due, later.due⟩
  tries := by
    intro earlier q rest a whole attempted
    cases earlier with
    | nil =>
      cases whole
      rw [show (built (attempts [])).length = 0 from rfl, MessageId.after_zero]
      exact tries a attempted
    | cons first earlier =>
      cases whole
      -- the rest counts from where the attempt for `p` left the radio
      have next := later.tries earlier q rest a rfl attempted
      rw [made.nextId, MessageId.after_after, made.waiting, Nat.add_assoc] at next
      rw [Pass.attempts_cons, Attempt.built_append, Attempt.entering_append, List.length_append,
        List.length_append]
      exact next

theorem notifyEach_rounds (s : Observable) (now : Nat) (unconditionally : Bool) (r : Radio)
    (ordered : r.Ordered) (observers : List Observer) :
    ∃ passes, passes.map (·.observer) = observers ∧
      s.Rounds r (fun o => unconditionally || o.due s.status now) passes ∧
      r.Attempts (s.notifyEach now unconditionally r observers).1 (attempts passes) ∧
      (s.notifyEach now unconditionally r observers).2.1 = passes.map (s.left now) ∧
      ((s.notifyEach now unconditionally r observers).2.2 = .ok () ↔
        ∀ a ∈ attempts passes, a.taken?.isSome) := by
  -- on the observers, for every radio: an attempt leaves another one for the rest
  induction observers generalizing r with
  | nil => exact ⟨[], rfl, .nil, .refl r, rfl, by simp [notifyEach, attempts]⟩
  | cons o rest ih =>
    unfold notifyEach
    split
    · next wanted =>
      obtain ⟨a, made, tries, after, ok⟩ := s.notify_attempts now o ordered
      obtain ⟨passes, order, rounds, later, table, all⟩ :=
        ih _ (ordered.of_config made.config)
      refine ⟨⟨o, some a⟩ :: passes, by rw [List.map_cons, order], .cons (by simp [wanted])
        (by simpa using tries) made rounds, ?_⟩
      have both := made.trans later
      rw [List.map_cons, ← after, ← table, Pass.attempts_cons, Option.toList_some,
        List.singleton_append, List.forall_mem_cons, ← ok, ← all]
      cases rounded : (s.notifyEach now unconditionally (s.notify now r o).1 rest).2.2 with
      | ok _ =>
        simp only [rounded]
        exact ⟨both, trivial, by simp⟩
      | error e =>
        simp only [rounded]
        exact ⟨both, trivial, by simp⟩
    · next unwanted =>
      obtain ⟨passes, order, rounds, later, table, all⟩ := ih r ordered
      refine ⟨⟨o, none⟩ :: passes, by rw [List.map_cons, order], .cons (by simp [unwanted])
        (by simp) (.refl r) rounds, later, ?_, all⟩
      rw [List.map_cons, ← table]
      rfl

theorem Rounds.front {p : Pass} (h : s.Rounds r wanted (passes ++ [p])) :
    s.Rounds r wanted passes where
  due := fun q member => h.due q (List.mem_append_left _ member)
  tries := fun earlier q later a whole =>
    h.tries earlier q (later ++ [p]) a (by rw [whole, List.append_assoc, List.cons_append])

theorem Rounds.ids (h : s.Rounds r wanted passes) : (built (attempts passes)).map (·.id) =
    (List.range (built (attempts passes)).length).map r.nextId.after := by
  -- from the end, since an attempt is described by those before it
  induction passes using List.reverseRecOn with
  | nil => rfl
  | append_singleton front p ih =>
    rw [Pass.attempts_last]
    cases attempt : p.attempt with
    | none => simpa using ih h.front
    | some a =>
      rw [Option.toList_some, Attempt.built_append, List.map_append, ih h.front]
      cases h.tries front p [] a rfl attempt with
      | unbuilt => simp [built, Attempt.message?]
      | @built m _ announces goes =>
        have one : built [a] = [m] := by cases goes <;> rfl
        rw [one, List.length_append, List.length_singleton, List.range_succ, List.map_append,
          List.map_singleton, List.map_singleton, announces.id]

theorem built_length_le (passes : List Pass) : (built (attempts passes)).length ≤ passes.length :=
  Nat.le_trans (List.length_filterMap_le _ _) (List.length_filterMap_le _ _)

/-- No two messages share an id, unless there are more than ids. -/
theorem Rounds.fresh (h : s.Rounds r wanted passes) (few : passes.length ≤ UInt16.size) :
    ((built (attempts passes)).map (·.id)).Nodup := by
  have count := built_length_le passes
  rw [h.ids]
  refine List.Nodup.map_on (fun i here j there same => ?_) List.nodup_range
  rw [List.mem_range] at here there
  exact MessageId.after_inj (by omega) (by omega) same

/-! ## A new status -/

/-- A status is published at a time: who is notified of it, and what that leaves of the resource
and the radio. -/
structure Publishes (s : Observable) (r : Radio) (status : Reading) (now : Nat)
    (passes : List Pass) (s' : Observable) (r' : Radio) (result : Except RuntimeError Unit) :
    Prop where
  order : passes.map (·.observer) = s.observers
  rounds : { s with status, counter := s.counter + 1 }.Rounds r
    (fun o => ∀ c ∈ o.conditions, c.holds status o.lastValue (now - o.timestamp) = true) passes
  /-- Beside the status and its number, only the table and the count of refreshes change. -/
  resource : s' = { s with
    status
    counter := s.counter + 1
    observers := passes.map ({ s with status, counter := s.counter + 1 }.left now)
    pendingRefreshes :=
      if s.endpoint.registration.isSome then min (s.pendingRefreshes + 1) 65535
      else s.pendingRefreshes }
  /-- A refresh is asked for after the attempts, exactly if there is a registration. -/
  radio : ∃ told, r.Attempts told (attempts passes) ∧
    r' = { told with scheduled := told.scheduled ++ s.endpoint.registration.toList.map fun id =>
      ⟨s.maxAge.toNat * 1000, .maxAge id⟩ }
  fresh : passes.length ≤ UInt16.size → ((built (attempts passes)).map (·.id)).Nodup
  result : result = .ok () ↔ ∀ a ∈ attempts passes, a.taken?.isSome

theorem due_iff (o : Observer) (status : Reading) (now : Nat) : o.due status now = true ↔
    ∀ c ∈ o.conditions, c.holds status o.lastValue (now - o.timestamp) = true := List.all_eq_true

theorem scheduleRefresh_eq (s : Observable) (r : Radio) : s.scheduleRefresh r =
    ({ s with pendingRefreshes :=
        if s.endpoint.registration.isSome then min (s.pendingRefreshes + 1) 65535
        else s.pendingRefreshes },
      { r with scheduled := r.scheduled ++ s.endpoint.registration.toList.map fun id =>
        ⟨s.maxAge.toNat * 1000, .maxAge id⟩ }) := by
  unfold scheduleRefresh
  split
  · next none => simp [none]
  · next id current => simp [current, Radio.schedule]

/-- Publishing a status notifies exactly the observers all of whose conditions hold. -/
theorem setStatus_notifies_due (s : Observable) (r : Radio) (status : Reading) {now : Nat}
    (clock : r.now = .ok now) (ordered : r.config.strategy.least ≤ r.config.strategy.greatest) :
    ∃ passes, s.Publishes r status now passes (s.setStatus r status).1 (s.setStatus r status).2.1
      (s.setStatus r status).2.2 := by
  obtain ⟨passes, order, rounds, made, table, ok⟩ :=
    notifyEach_rounds { s with status, counter := s.counter + 1 } now false r ordered s.observers
  simp only [Bool.false_or, due_iff] at rounds
  unfold setStatus notifyObservers
  simp only [clock, scheduleRefresh_eq, table]
  exact ⟨passes, order, rounds, rfl, ⟨_, made, rfl⟩, rounds.fresh, ok⟩

set_option maxRecDepth 10000 in
/-- Of three observers the first is due and its notification is refused, the second is not due, and
the third has no conditions. -/
theorem setStatus_notifies_due_refused :
    let r : Radio := { Radio.start 0 {} { ticks := 5000 } with
      network := { outcomes := [.busy, .failed 7] } }
    let changes : Condition := ⟨.timeseries, true, .integer, 0⟩
    let s : Observable := ⟨⟨"a", some ⟨0⟩, false, .fixed []⟩, .natural 5, 60, false,
      [⟨1, .empty, ⟨20⟩, 10, .natural 5, [changes]⟩, ⟨2, .empty, ⟨21⟩, 11, .natural 6, [changes]⟩,
        ⟨3, .empty, ⟨22⟩, 12, .natural 5, []⟩], 4, 1, Renderer.plain⟩
    let (s', r', result) := s.setStatus r (.natural 6)
    r.now = .ok 5000 ∧ r.config.strategy.least ≤ r.config.strategy.greatest ∧
      s'.observers.map (fun o => (o.peer, o.timestamp)) = [(1, 10), (2, 11), (3, 5000)] ∧
      r'.transmissions.map (fun t => (t.peer, t.packet.kind, t.refusal)) =
        [(1, .confirmable, some 7), (3, .nonConfirmable, none)] ∧
      r'.scheduled.map (·.event) = [.maxAge ⟨0⟩] ∧ result.toBool = false ∧
      ∃ passes, s.Publishes r (.natural 6) 5000 passes s' r' result := by
  intro r changes s
  have clock : r.now = .ok 5000 := rfl
  have ordered : r.config.strategy.least ≤ r.config.strategy.greatest := by decide
  exact ⟨clock, ordered, by decide +kernel, by decide +kernel, by decide +kernel,
    by decide +kernel, setStatus_notifies_due s r (.natural 6) clock ordered⟩

end Observable
end CoapNode
