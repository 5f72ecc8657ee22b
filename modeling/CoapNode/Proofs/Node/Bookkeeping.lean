import CoapNode.Proofs.Node.Lifetime
/-! Everything that is sent in the name of a message id, message by message, and with it the
bookkeeping of retransmissions over whole runs. -/
namespace CoapNode

/-- One more transmission in the name of an id: the first of a new message, or the next of
the latest. -/
def Transmission.join (lives : List (List Transmission)) (t : Transmission) :
    List (List Transmission) :=
  match t.enters, lives with
  | false, latest :: older => (latest ++ [t]) :: older
  | _, _ => [t] :: lives

theorem Transmission.join_entering {t : Transmission} (enters : t.enters = true)
    (lives : List (List Transmission)) : join lives t = [t] :: lives := by
  simp only [join, enters]

theorem Transmission.join_repeating {t : Transmission} {id : MessageId}
    (activity : t.activity = .retransmitting id) (latest : List Transmission)
    (older : List (List Transmission)) :
    join (latest :: older) t = (latest ++ [t]) :: older := by
  have outside : t.enters = false := by simp [Transmission.enters, activity]
  simp only [join, outside]

/-- The transmissions of one message: it enters, and then goes to the same peer again, byte
for byte and not too often. -/
structure Life (most : Nat) (life : List Transmission) : Prop where
  repeats : ∃ first more, life = first :: more ∧ first.enters = true ∧
    ∀ t ∈ more, t.activity = .retransmitting first.packet.id ∧ t.peer = first.peer ∧
      t.packet = first.packet ∧ t.bytes = first.bytes
  bounded : life.length ≤ max 1 most

theorem Life.append {most : Nat} {life : List Transmission} {t : Transmission}
    {e : Unacknowledged} (h : Life most life) (sends : ∀ x ∈ life, e.Sends x) (again : e.Sends t)
    (activity : t.activity = .retransmitting e.packet.id) (room : life.length < max 1 most) :
    Life most (life ++ [t]) := by
  obtain ⟨first, more, rfl, enters, same⟩ := h.repeats
  have opening := sends first (List.mem_cons_self ..)
  refine ⟨⟨first, more ++ [t], rfl, enters, fun x member => ?_⟩, ?_⟩
  · rcases List.mem_append.mp member with old | new
    · exact same x old
    · rw [List.mem_singleton.mp new, activity, opening.peer, opening.packet, opening.bytes]
      exact ⟨rfl, again.peer, again.packet, again.bytes⟩
  · rw [List.length_append]
    exact room

namespace Run

variable {s : Run} {op : Operation} {id : MessageId}

/-- What was sent in the name of an id, message by message and the latest message first. -/
def lives (s : Run) (id : MessageId) : List (List Transmission) :=
  (s.node.radio.transmissions.filter (·.isOf id)).foldl Transmission.join []

theorem Sound.lives_silent (sound : s.Sound) (allows : s.Allows op)
    (none : (s.attempted op).filter (·.isOf id) = []) : (s.step op).lives id = s.lives id := by
  rw [lives, sound.transmissions_step allows, List.filter_append, none, List.append_nil]
  rfl

theorem Sound.lives_join (sound : s.Sound) (allows : s.Allows op) {t : Transmission}
    (one : (s.attempted op).filter (·.isOf id) = [t]) :
    (s.step op).lives id = Transmission.join (s.lives id) t := by
  rw [lives, sound.transmissions_step allows, List.filter_append, one, List.foldl_append]
  rfl

/-- Every message was sent as it should be, and an entry knows how often its own was. -/
structure Told (s : Run) : Prop where
  lives : ∀ id, ∀ life ∈ s.lives id, Life s.node.radio.config.maxAttempts life
  current : ∀ e ∈ s.history, ∃ life older, s.lives e.packet.id = life :: older ∧
    (∀ t ∈ life, e.Sends t) ∧ life.length = e.backoff.attempts

theorem start_told (self : NodeId) (config : Config) (clock : Clock) :
    (start self config clock).Told where
  lives := fun id life member => by cases member
  current := fun e member => by cases member

theorem Sound.config_step (sound : s.Sound) (allows : s.Allows op) :
    (s.step op).node.radio.config = s.node.radio.config := by
  cases sound.shape allows with
  | grown grown => exact grown.radio.config
  | repeated _ _ _ repeats => exact repeats.config
  | gaveUp _ _ _ givesUp => exact givesUp.radio.config

theorem Sound.self_step (sound : s.Sound) (allows : s.Allows op) :
    (s.step op).node.radio.self = s.node.radio.self := by
  cases sound.shape allows with
  | grown grown => exact grown.radio.self
  | repeated _ _ _ repeats => exact repeats.self
  | gaveUp _ _ _ givesUp => exact givesUp.radio.self

theorem Told.lives_step (told : s.Told) (sound : s.Sound) (allows : s.Allows op)
    {life : List Transmission} (member : life ∈ (s.step op).lives id) :
    Life s.node.radio.config.maxAttempts life := by
  cases sound.named allows id with
  | silent none =>
    rw [sound.lives_silent allows none] at member
    exact told.lives id life member
  | @enters t x one enters =>
    rw [sound.lives_join allows one, Transmission.join_entering enters] at member
    rcases List.mem_cons.mp member with rfl | old
    · exact ⟨⟨t, [], rfl, enters, by simp⟩, Nat.le_max_left ..⟩
    · exact told.lives id life old
  | @repeated t e one activity old same sends more =>
    subst same
    obtain ⟨latest, older, whole, sent, attempts⟩ := told.current e old
    obtain ⟨-, -, maxAttempts⟩ := sound.counted e old
    have before := told.lives e.packet.id
    rw [whole] at before
    rw [sound.lives_join allows one, whole, Transmission.join_repeating activity] at member
    rcases List.mem_cons.mp member with rfl | old
    · have latestLife := before latest (List.mem_cons_self ..)
      exact latestLife.append sent sends activity (by omega)
    · exact before life (List.mem_cons_of_mem _ old)

theorem Told.current_step (told : s.Told) (sound : s.Sound) (allows : s.Allows op)
    {x : Unacknowledged} (member : x ∈ (s.step op).history) :
    ∃ life older, (s.step op).lives x.packet.id = life :: older ∧ (∀ t ∈ life, x.Sends t) ∧
      life.length = x.backoff.attempts := by
  have later := sound.step allows
  cases sound.named allows x.packet.id with
  | silent none old =>
    rw [sound.lives_silent allows none]
    exact told.current x (old x member rfl)
  | @enters t y one enters new same sends first =>
    cases later.eq_of_id new member same
    rw [sound.lives_join allows one, Transmission.join_entering enters]
    refine ⟨[t], s.lives x.packet.id, rfl, fun u listed => ?_, first.symm⟩
    rwa [List.mem_singleton.mp listed]
  | @repeated t e one activity old same sends more again =>
    cases later.eq_of_id again member same
    obtain ⟨latest, older, whole, sent, attempts⟩ := told.current e old
    change s.lives (Node.again e).packet.id = _ at whole
    rw [sound.lives_join allows one, whole, Transmission.join_repeating activity]
    refine ⟨latest ++ [t], older, rfl, fun u listed => ?_, ?_⟩
    · rcases List.mem_append.mp listed with old | new
      · obtain ⟨peer, packet, bytes⟩ := sent u old
        exact ⟨peer, packet, bytes⟩
      · rw [List.mem_singleton.mp new]
        exact ⟨sends.peer, sends.packet, sends.bytes⟩
    · rw [List.length_append, attempts]
      rfl

theorem Told.step (told : s.Told) (sound : s.Sound) (allows : s.Allows op) :
    (s.step op).Told where
  lives := fun id life member => by
    rw [sound.config_step allows]
    exact told.lives_step sound allows member
  current := fun x member => told.current_step sound allows member

theorem Told.after (told : s.Told) (sound : s.Sound) {ops : List Operation}
    (admissible : s.Admissible ops) : (s.after ops).Told := by
  induction ops generalizing s with
  | nil => exact told
  | cons op rest ih =>
    exact ih (told.step sound admissible.1) (sound.step admissible.1) admissible.2

/-! ## Leaving for good -/

/-- Once an id is free, its earlier messages are never sent again, and the history has it
again only for a message that entered since. -/
theorem Sound.departed (sound : s.Sound) (told : s.Told) {later : List Operation}
    (admissible : s.Admissible later) {old : List (List Transmission)}
    (free : ∃ newer, s.lives id = newer ++ old ∧
      (newer = [] → ∀ x ∈ s.history, x.packet.id ≠ id)) :
    ∃ newer, (s.after later).lives id = newer ++ old ∧
      (newer = [] → ∀ x ∈ (s.after later).history, x.packet.id ≠ id) := by
  induction later generalizing s with
  | nil => exact free
  | cons op rest ih =>
    refine ih (sound.step admissible.1) (told.step sound admissible.1) admissible.2 ?_
    obtain ⟨newer, whole, absent⟩ := free
    cases sound.named admissible.1 id with
    | silent none older =>
      rw [sound.lives_silent admissible.1 none]
      exact ⟨newer, whole, fun empty x member same => absent empty x (older x member same) same⟩
    | @enters t x one enters =>
      rw [sound.lives_join admissible.1 one, Transmission.join_entering enters, whole]
      exact ⟨[t] :: newer, rfl, by simp⟩
    | @repeated t e one activity listed same =>
      cases newer with
      | nil => exact absurd same (absent rfl e listed)
      | cons latest newer =>
        rw [sound.lives_join admissible.1 one, whole, List.cons_append,
          Transmission.join_repeating activity]
        exact ⟨(latest ++ [t]) :: newer, rfl, by simp⟩

/-! ## The whole bookkeeping -/

/-- What an operation, and whatever follows it, does to the history. -/
structure Proceeds (s : Run) (op : Operation) : Prop where
  confirmable : ∀ t ∈ s.attempted op, t.packet.kind = .confirmable →
    t.isOf t.packet.id = true ∨ (t.activity = .sending t.packet.id ∧ t.refusal ≠ none) ∨
      op.RepeatsAnswer s.node t
  leaves : ∀ e ∈ s.history, (¬ ∃ x ∈ (s.step op).history, e.Same x) ↔
    op.Answers s.node.radio.self e ∨ ∃ services, s.Exhausts op e services
  departed : ∀ e ∈ s.history, (¬ ∃ x ∈ (s.step op).history, e.Same x) →
    ∀ later, (s.step op).Admissible later →
      ∃ newer, ((s.step op).after later).lives e.packet.id =
          newer ++ (s.step op).lives e.packet.id ∧
        (newer = [] → ∀ x ∈ ((s.step op).after later).history, x.packet.id ≠ e.packet.id)
  /-- The event that an answered message leaves behind, whenever it elapses. -/
  leftover : ∀ e ∈ s.history, op.Answers s.node.radio.self e →
    ∀ later, (s.step op).Admissible later → (∀ next ∈ later, next.fired ≠ some e.packet.id) →
      ((s.step op).after later).outstanding e.packet.id = 1 ∧ ∀ services,
        ((s.step op).after later).node.fire (.retransmit e.packet.id) services =
          (((s.step op).after later).node, services, .ok ())
  expired : ∀ e ∈ s.history, ∀ services, s.Exhausts op e services →
    (∃ log, (s.step op).node = (Service.forEach (·.expired · e.peer e.packet.token) services
        { s.node with radio := { s.node.radio with
          unacknowledged := s.history.filter (·.packet.id != e.packet.id), log } }).2) ∧
      (s.step op).node.expiries = s.node.expiries ++
        List.replicate (services.countP Node.listens) (e.peer, e.packet.token)
  unexpired : (∀ e ∈ s.history, ∀ services, ¬ s.Exhausts op e services) →
    (s.step op).node.expiries = s.node.expiries

theorem Sound.proceeds (sound : s.Sound) (told : s.Told) (allows : s.Allows op) :
    s.Proceeds op where
  confirmable := fun t => sound.confirmable allows
  leaves := fun e => sound.leaves_iff allows
  departed := fun e member gone later admissible =>
    (sound.step allows).departed (told.step sound allows) admissible
      ⟨[], rfl, fun _ x listed same => gone ⟨x, listed, sound.same_of_id allows member listed same⟩⟩
  leftover := fun e member answers later admissible unfired => by
    obtain ⟨absent, waits⟩ := sound.answered_waits allows member answers
    obtain ⟨absent', waits'⟩ := (sound.step allows).leftover admissible absent waits unfired
    exact ⟨waits', fire_absent absent'⟩
  expired := fun e member services => sound.exhausted allows member
  unexpired := sound.unexpired allows

theorem Sound.settings_after (sound : s.Sound) {ops : List Operation}
    (admissible : s.Admissible ops) :
    (s.after ops).node.radio.config = s.node.radio.config ∧
      (s.after ops).node.radio.self = s.node.radio.self := by
  induction ops generalizing s with
  | nil => exact ⟨rfl, rfl⟩
  | cons op rest ih =>
    obtain ⟨config, self⟩ := ih (sound.step admissible.1) admissible.2
    exact ⟨config.trans (sound.config_step admissible.1), self.trans (sound.self_step admissible.1)⟩

/-- At every moment of a run each entry has one event to come, its message was sent as often
as it counts and never otherwise than as it entered, and it leaves by an answer or by
expiry, of which exactly the latter is told. -/
theorem bookkeeping_of_run (self : NodeId) (config : Config) (clock : Clock)
    (ordered : config.strategy.least ≤ config.strategy.greatest) (ops : List Operation)
    (admissible : (start self config clock).Admissible ops) :
    let s := (start self config clock).after ops
    (s.node.radio.config = config ∧ s.node.radio.self = self) ∧
      (s.history.map (·.packet.id)).Nodup ∧
      (∀ e ∈ s.history, s.outstanding e.packet.id = 1) ∧
      s.Told ∧ ∀ op, s.Allows op → s.Proceeds op := by
  have begun := start_sound self config clock ordered
  have sound := begun.after admissible
  have told := (start_told self config clock).after begun admissible
  exact ⟨begun.settings_after admissible, sound.distinct, sound.single, told,
    fun op allows => sound.proceeds told allows⟩

def sparing (maxAttempts : Nat) : Config := { strategy := .delay 1 1, maxAttempts }

def unanswered : List Operation :=
  let ask := emptyMessage .confirmable ⟨7⟩
  [.perform (.send 1 .asIs ask) (.fresh ask 1), .fire (.retransmit ⟨7⟩) [],
    .fire (.retransmit ⟨7⟩) [.probe ⟨none, true, true, true, .fixed []⟩]]

set_option maxRecDepth 10000 in
theorem bookkeeping_of_unanswered :
    (start 0 (sparing 2) {}).Admissible unanswered ∧
      let s := (start 0 (sparing 2) {}).after unanswered
      (s.lives ⟨7⟩).map List.length = [2] ∧ s.node.expiries = [(1, .empty)] ∧ s.Told ∧
        ∀ op, s.Allows op → s.Proceeds op := by
  have admissible : (start 0 (sparing 2) {}).Admissible unanswered := by decide +kernel
  have kept := bookkeeping_of_run 0 (sparing 2) {} (Nat.le_refl 1) unanswered admissible
  exact ⟨admissible, by decide +kernel, by decide +kernel, kept.2.2.2⟩

/-- A request comes twice for a resource that acknowledges first and answers afterwards. -/
def asked : List Operation :=
  let answers := Handler.fixed [.acknowledge, .reply Code.content []]
  let receive := Operation.receive 1 [0x41, 1, 0, 9, 0x91, 0x61]
    [.plain ⟨"a", some ⟨0⟩, false, answers⟩]
  [.create (.plain "a" answers), receive, receive]

def hastened : List Operation :=
  let ask := emptyMessage .confirmable ⟨7⟩
  let hastens := Handler.fixed [.schedule 0 (.retransmit ⟨7⟩)]
  [.create (.plain "a" hastens), .perform (.send 2 .asIs ask) (.fresh ask 2),
    .receive 1 [0x41, 1, 0, 9, 0x91, 0x61] [.plain ⟨"a", some ⟨0⟩, false, hastens⟩]]

set_option maxRecDepth 10000 in
/-- Counted by what is on the wire, a message may exceed its attempts: the stored answer to a
duplicate is sent whatever its entry counts. And a message has two events to come when a handler
asked for one of them. -/
theorem answer_exceeds_attempts :
    let s := (start 0 (sparing 1) {}).after asked
    let t := (start 0 (sparing 1) {}).after hastened
    (sparing 1).strategy.least ≤ (sparing 1).strategy.greatest ∧
      (start 0 (sparing 1) {}).Admissible asked ∧
      (∃ e ∈ s.history, max 1 (sparing 1).maxAttempts <
        (s.node.radio.transmissions.filter fun t =>
          t.peer = e.peer ∧ t.bytes = e.packet.datagram).length) ∧
      t.fired = [] ∧ t.history.map (·.packet.id) = [⟨7⟩] ∧ t.outstanding ⟨7⟩ = 2 := by
  decide +kernel

end Run
end CoapNode
