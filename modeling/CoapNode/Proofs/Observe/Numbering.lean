import CoapNode.Proofs.Observe.Building
/-! The numbers that notifications carry. A resource counts the new statuses and the refreshes it
published, and a notification carries the count; so of two notifications that are built one after
the other the later carries the greater number, or the same number and the same status. -/
namespace CoapNode

/-! ## Editions -/

namespace Observable

/-- What the next notification tells: the count, and the status as it is rendered. -/
def edition (s : Observable) : UInt32 × Option (List UInt8) :=
  (s.counter, s.renderer.payload? s.status)

end Observable

/-- The message carries the number and the payload of the edition. -/
structure Packet.IsOf (p : Message) (edition : UInt32 × Option (List UInt8)) : Prop where
  number : p.observe = .ok edition.1
  payload : edition.2 = some p.payload

namespace Observable

variable {s : Observable}

theorem scheduleRefresh_edition (s : Observable) (r : Radio) :
    (s.scheduleRefresh r).1.edition = s.edition := by
  unfold scheduleRefresh
  split <;> rfl

theorem enter_edition (s : Observable) (r : Radio) (o : Observer) :
    (s.enter r o).1.edition = s.edition := by
  have put : (s.putObserver r o).1.edition = s.edition := by
    unfold putObserver
    split <;> rfl
  unfold enter
  simp only
  split
  · rw [scheduleRefresh_edition, put]
  · exact put

theorem offer_edition (s : Observable) (n : Node) (m : Received) :
    (s.offer n m).1.edition = s.edition := by
  have serves := s.offer_cases n m
  generalize (s.offer n m).1 = s' at serves
  generalize (s.offer n m).2.1 = n' at serves
  cases serves with
  | apart | failed | stopped => rfl
  | registered => exact s.enter_edition _ _

theorem published_edition (s : Observable) (r r' : Radio) (unconditionally : Bool) :
    ((s.notifyObservers r unconditionally).1.scheduleRefresh r').1.edition = s.edition := by
  rw [scheduleRefresh_edition]
  unfold notifyObservers
  split <;> rfl

theorem notification_edition {token : ShortBytes} {packet : Message}
    (built : s.notification token = .ok packet) : packet.IsOf s.edition :=
  ⟨notification_observe built, (notification_notifies built).payload⟩

theorem toOption_edition {token : ShortBytes} {packet : Message}
    (member : packet ∈ (s.notification token).toOption.toList) : packet.IsOf s.edition := by
  cases built : s.notification token with
  | error e => simp [built, Except.toOption] at member
  | ok p =>
    obtain rfl : packet = p := by simpa [built, Except.toOption] using member
    exact notification_edition built

theorem builds_edition {r : Radio} {unconditionally : Bool} {packet : Message}
    (member : packet ∈ s.builds r unconditionally) : packet.IsOf s.edition := by
  unfold builds at member
  split at member
  · cases member
  · obtain ⟨o, -, told⟩ := List.mem_flatMap.mp member
    unfold buildsFor at told
    split at told
    · exact toOption_edition told
    · cases told

end Observable

namespace Visit

variable {s : Observable} {v : Visit}

/-- The resource as it builds notifications in a visit. -/
def issuing (s : Observable) (v : Visit) : Observable := (v.publishes? s).elim s (·.1)

theorem built_edition {packet : Message} (member : packet ∈ v.built s) :
    packet.IsOf (v.issuing s).edition := by
  unfold issuing
  cases published : v.publishes? s with
  | some told =>
    cases v with
    | offer n m => cases published
    | _ =>
      simp only [built, published, Option.elim_some] at member
      exact Observable.builds_edition member
  | none =>
    cases v with
    | offer n m =>
      unfold built at member
      simp only at member
      split at member
      · exact Observable.toOption_edition member
      · cases member
    | _ =>
      simp only [built, published, Option.elim_none] at member
      cases member

theorem increments_of_built (offers : ∀ n m, v ≠ .offer n m) {packet : Message}
    (member : packet ∈ v.built s) : v.increments s = 1 := by
  cases published : v.publishes? s with
  | some told => rw [increments, published]; rfl
  | none =>
    cases v with
    | offer n m => exact absurd rfl (offers n m)
    | _ =>
      simp only [built, published, Option.elim_none] at member
      cases member

theorem done_edition (s : Observable) (v : Visit) :
    (v.done s).1.edition = (v.issuing s).edition := by
  cases v with
  | offer n m => exact s.offer_edition n m
  | refresh r =>
    rcases s.timerFired_cases r with ⟨idle, same⟩ | ⟨last, watched, log, told⟩
    · have none : (refresh r).publishes? s = none := if_pos (by simpa using idle)
      rw [done, same, issuing, none]
      rfl
    · rw [done, told, Observable.published_edition, issuing]
      simp [publishes?, last, watched]
  | forget r peer token => rfl
  | disown r peer id =>
    rcases s.forgetNotified_cases r peer id with ⟨-, same⟩ | ⟨o, -, -, -, same⟩ <;>
      · rw [done, same]
        rfl
  | call r c =>
    cases c with
    | setStatus status => exact Observable.published_edition _ r _ false
    | _ => rfl

theorem counter_next {c : UInt32} (few : c.toNat + 1 < UInt32.size) :
    (c + 1).toNat = c.toNat + 1 ∧ c < c + 1 := by
  have number : (c + 1).toNat = c.toNat + 1 := by
    rw [UInt32.toNat_add]
    exact Nat.mod_eq_of_lt few
  exact ⟨number, UInt32.lt_iff_toNat_lt.mpr (by omega)⟩

/-- The resource counts one more, or it builds in the edition of before. -/
theorem issuing_cases (s : Observable) (v : Visit) :
    (v.increments s = 0 ∧ v.issuing s = s) ∨
      v.increments s = 1 ∧ (v.issuing s).counter = s.counter + 1 := by
  unfold increments issuing
  cases v with
  | call r c =>
    cases c with
    | setStatus status => exact .inr ⟨rfl, rfl⟩
    | _ => exact .inl ⟨rfl, rfl⟩
  | refresh r =>
    unfold publishes?
    simp only
    split
    · exact .inl ⟨rfl, rfl⟩
    · exact .inr ⟨rfl, rfl⟩
  | _ => exact .inl ⟨rfl, rfl⟩

end Visit

/-! ## Order -/

/-- The later message carries the greater number, or the same number and payload. -/
def Packet.Precedes (p q : Message) : Prop :=
  ∃ a b, p.observe = .ok a ∧ q.observe = .ok b ∧ a ≤ b ∧ (a = b → p.payload = q.payload)

/-- Notifications that were built one after the other, the last of them in this edition or an
earlier one. -/
structure Numbered (edition : UInt32 × Option (List UInt8)) (built : List Message) : Prop where
  ordered : built.Pairwise Packet.Precedes
  past : ∀ p ∈ built, ∃ a, p.observe = .ok a ∧ a ≤ edition.1 ∧
    (a = edition.1 → edition.2 = some p.payload)

namespace Numbered

variable {s : Observable} {edition edition' : UInt32 × Option (List UInt8)}
  {built new : List Message}

/-- In a new edition the notifications built before have smaller numbers. -/
theorem advance (h : Numbered edition built) (greater : edition.1 < edition'.1) :
    Numbered edition' built where
  ordered := h.ordered
  past := fun p member => by
    obtain ⟨a, number, bound, -⟩ := h.past p member
    have less : a < edition'.1 := UInt32.lt_of_le_of_lt bound greater
    exact ⟨a, number, UInt32.le_of_lt less, fun same => absurd same (UInt32.ne_of_lt less)⟩

theorem append (h : Numbered edition built) (current : ∀ q ∈ new, Packet.IsOf q edition) :
    Numbered edition (built ++ new) where
  ordered := by
    have apart : ∀ p ∈ built, ∀ q ∈ new, Packet.Precedes p q := fun p old q fresh => by
      obtain ⟨a, number, bound, same⟩ := h.past p old
      obtain ⟨number', payload⟩ := current q fresh
      exact ⟨a, _, number, number', bound, fun equal =>
        Option.some.inj ((same equal).symm.trans payload)⟩
    have together : new.Pairwise Packet.Precedes := List.pairwise_of_forall_mem_list
      fun p one q other => ⟨_, _, (current p one).number, (current q other).number,
        UInt32.le_refl _,
        fun _ => Option.some.inj ((current p one).payload.symm.trans (current q other).payload)⟩
    exact List.pairwise_append.mpr ⟨h.ordered, together, apart⟩
  past := fun p member => by
    rcases List.mem_append.mp member with old | fresh
    · exact h.past p old
    · obtain ⟨number, payload⟩ := current p fresh
      exact ⟨_, number, UInt32.le_refl _, fun _ => payload⟩

theorem visit (h : Numbered s.edition built) (v : Visit)
    (few : s.counter.toNat + v.increments s < UInt32.size) :
    Numbered (v.done s).1.edition (built ++ v.built s) ∧
      (v.done s).1.counter.toNat = s.counter.toNat + v.increments s := by
  have left := v.done_edition s
  have counter : (v.done s).1.counter = (v.issuing s).counter := congrArg Prod.fst left
  rw [left, counter]
  rcases v.issuing_cases s with ⟨unchanged, same⟩ | ⟨more, next⟩
  · have current : ∀ q ∈ v.built s, Packet.IsOf q (v.issuing s).edition :=
      fun q member => v.built_edition member
    rw [same] at current ⊢
    exact ⟨h.append current, by rw [unchanged, Nat.add_zero]⟩
  · rw [more] at few ⊢
    obtain ⟨number, greater⟩ := Visit.counter_next few
    rw [← next] at number greater
    have advanced : Numbered (v.issuing s).edition built := h.advance greater
    exact ⟨advanced.append fun q member => v.built_edition member, number⟩

end Numbered

/-- A turn in which a status may be published: the application sets a new one, or an event for a
stale one elapses. -/
def Turn.publishes : Turn → Bool
  | .call (.setStatus _) | .fire (.maxAge _) _ _ => true
  | _ => false

namespace Publisher

variable {p : Publisher} {t : Turn} {earlier later : List Turn} {built : List Message}

theorem increments_append : p.increments (earlier ++ later) =
    p.increments earlier + (p.after earlier).increments later := by
  induction earlier generalizing p with
  | nil => simp [increments, after]
  | cons t rest ih =>
    rw [List.cons_append, increments, increments, ih, Nat.add_assoc]
    rfl

theorem numbered_step (h : Numbered p.resource.edition built)
    (few : p.resource.counter.toNat + p.increments [t] < UInt32.size) :
    Numbered (p.step t).resource.edition (built ++ p.built [t]) ∧
      (p.step t).resource.counter.toNat = p.resource.counter.toNat + p.increments [t] := by
  simp only [increments, Publisher.built, Nat.add_zero, List.append_nil] at few ⊢
  rw [p.step_resource]
  cases visited : p.visit? t with
  | none => exact ⟨by rw [Option.elim_none, Option.elim_none, List.append_nil]; exact h, rfl⟩
  | some v =>
    rw [visited] at few
    exact h.visit v few

theorem numbered_after (turns : List Turn) (h : Numbered p.resource.edition built)
    (few : p.resource.counter.toNat + p.increments turns < UInt32.size) :
    Numbered (p.after turns).resource.edition (built ++ p.built turns) ∧
      (p.after turns).resource.counter.toNat = p.resource.counter.toNat + p.increments turns := by
  induction turns generalizing p built with
  | nil =>
    rw [Publisher.built, List.append_nil]
    exact ⟨h, rfl⟩
  | cons t rest ih =>
    have count : p.increments (t :: rest) = p.increments [t] + (p.step t).increments rest := by
      simp only [increments, Nat.add_zero]
    have list : p.built (t :: rest) = p.built [t] ++ (p.step t).built rest := by
      simp only [Publisher.built, List.append_nil]
    obtain ⟨first, counted⟩ := numbered_step h (t := t) (by omega)
    obtain ⟨others, counted'⟩ := ih first (by omega)
    rw [list, ← List.append_assoc]
    exact ⟨others, counted'.trans (by omega)⟩

theorem visit_of_publishes (publishes : t.publishes = true) {v : Visit}
    (visited : p.visit? t = some v) (n : Node) (m : Received) : v ≠ .offer n m := by
  cases t with
  | receive | apart => cases publishes
  | call c =>
    cases visited
    simp
  | fire event before after =>
    cases event with
    | retransmit id => cases publishes
    | maxAge id =>
      simp only [visit?] at visited
      split at visited
      · cases visited
        simp
      · cases visited

theorem built_of_publishes (publishes : t.publishes = true) {q : Message}
    (member : q ∈ p.built [t]) (few : p.resource.counter.toNat + p.increments [t] < UInt32.size) :
    ∃ b, q.observe = .ok b ∧ p.resource.counter < b := by
  simp only [Publisher.built, increments, Nat.add_zero, List.append_nil] at member few
  cases visited : p.visit? t with
  | none =>
    rw [visited] at member
    cases member
  | some v =>
    rw [visited, Option.elim_some] at member few
    have more := v.increments_of_built (visit_of_publishes publishes visited) member
    obtain ⟨unchanged, -⟩ | ⟨-, next⟩ := v.issuing_cases p.resource
    · omega
    · rw [more] at few
      have greater := (Visit.counter_next few).2
      rw [← next] at greater
      exact ⟨_, (v.built_edition member).number, greater⟩

theorem created_counter {r r' : Radio} {path : String} {handler : Handler} {status : Reading}
    {renderer : Renderer} {s : Observable}
    (created : Observable.create r path handler status renderer = (r', .ok s)) : s.counter = 1 := by
  unfold Observable.create at created
  simp only at created
  split at created
  · cases created
  · cases created
    rfl

/-- The notifications that an observable resource builds are in the order of their numbers: these
never decrease, what a new status or a refresh publishes has a greater number than all before, and
under one number there is one payload. What the network takes of them it takes in that order. -/
theorem numbers_order_notifications {n : Node} {r : Radio} {path : String} {handler : Handler}
    {status : Reading} {renderer : Renderer} {s : Observable}
    (created : Observable.create n.radio path handler status renderer = (r, .ok s))
    (elapsed : List TimerEvent) (turns : List Turn) :
    let start : Publisher := ⟨{ n with radio := r }, s, elapsed⟩
    start.increments turns < UInt32.size - 1 →
      (start.built turns).Pairwise Packet.Precedes ∧
      (∀ earlier t later, turns = earlier ++ t :: later → t.publishes = true →
        ∀ p ∈ start.built earlier, ∀ q ∈ (start.after earlier).built [t],
          ∃ a b, p.observe = .ok a ∧ q.observe = .ok b ∧ a < b) ∧
      ((start.ledger turns).map (·.packet.announcement)).Sublist
        ((start.built turns).map (·.announcement)) := by
  intro start few
  have first : start.resource.counter.toNat = 1 := by rw [created_counter created]; rfl
  have fresh : Numbered start.resource.edition [] := ⟨List.Pairwise.nil, by simp⟩
  refine ⟨(numbered_after turns fresh (by omega)).1.ordered, ?_, start.ledger_announces turns⟩
  rintro earlier t later rfl publishes p old q new
  rw [increments_append] at few
  have step : (start.after earlier).increments [t] ≤
      (start.after earlier).increments (t :: later) := by
    simp only [increments]
    omega
  obtain ⟨numbered, counted⟩ := numbered_after earlier fresh (by omega)
  obtain ⟨a, number, bound, -⟩ := numbered.past p old
  obtain ⟨b, number', greater⟩ := built_of_publishes publishes new (by omega)
  exact ⟨a, b, number, number', UInt32.lt_of_le_of_lt bound greater⟩

set_option maxRecDepth 10000 in
/-- One peer observes, the status changes, another peer observes, and the status gets stale. -/
theorem numbers_order_two_observers :
    let created := Observable.create (Radio.start 0 {} {}) "a" (.fixed []) (.natural 5)
      Renderer.plain
    let asks := fun token => [0x43, 1, 0, token, 0x91, 97, 0x10, 0x11, token]
    let stale : Turn := .fire (.maxAge ⟨0⟩) [] []
    let turns := [.receive 1 (asks 7) [] [], .call (.setStatus (.natural 6)),
      .receive 2 (asks 8) [] [], stale, stale]
    ∃ r s, created = (r, .ok s) ∧
      let start : Publisher := ⟨⟨r, [], []⟩, s, []⟩
      start.increments turns < UInt32.size - 1 ∧
      (start.built turns).map (fun p => (p.observe.toOption, p.payload)) =
        [(some 1, [53]), (some 2, [54]), (some 2, [54]), (some 3, [54]), (some 3, [54])] ∧
      (start.built turns).Pairwise Packet.Precedes := by
  intro created asks stale turns
  refine ⟨_, _, rfl, ?_⟩
  intro start
  have few : start.increments turns < UInt32.size - 1 := by decide +kernel
  exact ⟨few, by decide +kernel, (numbers_order_notifications
    (n := ⟨Radio.start 0 {} {}, [], []⟩) rfl [] turns few).1⟩

end Publisher
end CoapNode
