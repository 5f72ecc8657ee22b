import CoapNode.Proofs.Node.Operations
/-! The history of unacknowledged messages over a whole run. Timers are never cancelled, so
an event may outlive its message; what carries the proofs is that every message has exactly
one event still to come, and that no other message takes its id meanwhile. -/
namespace CoapNode

/-- A node, and the ids whose retransmission has elapsed, once for every time. -/
structure Run where
  node : Node
  fired : List MessageId

namespace Run

def start (self : NodeId) (config : Config) (clock : Clock) : Run :=
  ⟨⟨Radio.start self config clock, [], []⟩, []⟩

def step (s : Run) (op : Operation) : Run := ⟨op.apply s.node, s.fired ++ op.fired.toList⟩

def after (s : Run) (ops : List Operation) : Run := ops.foldl step s

/-- The confirmable messages that still await an answer. -/
def history (s : Run) : List Unacknowledged := s.node.radio.unacknowledged

/-- How many events for this id were asked for and have not elapsed. -/
def outstanding (s : Run) (id : MessageId) : Nat :=
  s.node.radio.retransmits.count id - s.fired.count id

/-- The transmissions that an operation attempts. -/
def attempted (s : Run) (op : Operation) : List Transmission :=
  (s.step op).node.radio.transmissions.drop s.node.radio.transmissions.length

/-- The ids of the messages that enter the history in an operation. -/
def entering (s : Run) (op : Operation) : List MessageId :=
  ((s.attempted op).filter (·.enters)).map (·.packet.id)

/-- What is promised of an operation: the application asks for no retransmission by itself, an
event elapses only while it is outstanding, and a message enters under an id of its own, which no
outstanding event has. -/
structure Allows (s : Run) (op : Operation) : Prop where
  unasked : ∀ event ∈ op.asked s.node, event.retransmits? = none
  once : ∀ id ∈ op.fired, 0 < s.outstanding id
  unused : ∀ id ∈ s.entering op, (s.step op).history.countP (·.packet.id == id) ≤ 1
  fresh : ∀ id ∈ s.entering op, s.outstanding id = op.fired.toList.count id

def Admissible (s : Run) : List Operation → Prop
  | [] => True
  | op :: rest => s.Allows op ∧ (s.step op).Admissible rest

instance (s : Run) (op : Operation) : Decidable (s.Allows op) :=
  decidable_of_iff ((∀ event ∈ op.asked s.node, event.retransmits? = none) ∧
      (∀ id ∈ op.fired, 0 < s.outstanding id) ∧
      (∀ id ∈ s.entering op, (s.step op).history.countP (·.packet.id == id) ≤ 1) ∧
      ∀ id ∈ s.entering op, s.outstanding id = op.fired.toList.count id)
    ⟨fun ⟨unasked, once, unused, fresh⟩ => ⟨unasked, once, unused, fresh⟩,
      fun ⟨unasked, once, unused, fresh⟩ => ⟨unasked, once, unused, fresh⟩⟩

instance decidableAdmissible (s : Run) : (ops : List Operation) → Decidable (s.Admissible ops)
  | [] => .isTrue trivial
  | op :: rest =>
    have := decidableAdmissible (s.step op) rest
    inferInstanceAs (Decidable (s.Allows op ∧ (s.step op).Admissible rest))

/-- What is true of a run at every moment. -/
structure Sound (s : Run) : Prop where
  ordered : s.node.radio.Ordered
  distinct : (s.history.map (·.packet.id)).Nodup
  balanced : ∀ id, s.fired.count id ≤ s.node.radio.retransmits.count id
  single : ∀ e ∈ s.history, s.outstanding e.packet.id = 1
  counted : ∀ e ∈ s.history, 1 ≤ e.backoff.attempts ∧
    e.backoff.attempts ≤ max 1 e.backoff.maxAttempts ∧
    e.backoff.maxAttempts = s.node.radio.config.maxAttempts
  fits : ∀ e ∈ s.history, e.packet.serializedLength ≤ datagramBuffer

theorem start_sound (self : NodeId) (config : Config) (clock : Clock)
    (ordered : config.strategy.least ≤ config.strategy.greatest) :
    (start self config clock).Sound where
  ordered := ordered
  distinct := List.nodup_nil
  balanced := fun _ => Nat.le_refl 0
  single := fun e member => by cases member
  counted := fun e member => by cases member
  fits := fun e member => by cases member

/-! ## Growth -/

/-- An operation that keeps these entries and lets others enter after them. -/
structure Grown (s : Run) (op : Operation) (kept : List Unacknowledged)
    (offered : List Transmission) (entered : List Unacknowledged) : Prop where
  older : kept.Sublist s.history
  radio : Radio.Extends { s.node.radio with unacknowledged := kept } (op.apply s.node).radio
    offered entered
  unfired : ∀ e ∈ s.history, op.fired ≠ some e.packet.id

variable {s : Run} {op : Operation} {kept : List Unacknowledged} {offered : List Transmission}
  {entered : List Unacknowledged}

theorem Grown.history_eq (h : s.Grown op kept offered entered) :
    (s.step op).history = kept ++ entered := h.radio.unacknowledged

theorem Grown.attempted_eq (h : s.Grown op kept offered entered) : s.attempted op = offered := by
  have whole : (s.step op).node.radio.transmissions = s.node.radio.transmissions ++ offered :=
    h.radio.transmissions
  rw [attempted, whole, List.drop_left]

theorem Grown.entering_eq (h : s.Grown op kept offered entered) :
    s.entering op = entered.map (·.packet.id) := by
  have opening := congrArg (List.map fun x : NodeId × Message => x.2.id) h.radio.opening
  rw [List.map_map, List.map_map] at opening
  rw [entering, h.attempted_eq]
  exact opening.symm

theorem Grown.entered_fresh (h : s.Grown op kept offered entered) (sound : s.Sound)
    (allows : s.Allows op) {e x : Unacknowledged} (new : e ∈ entered) (old : x ∈ s.history) :
    x.packet.id ≠ e.packet.id := by
  intro same
  have listed : e.packet.id ∈ s.entering op := by
    rw [h.entering_eq]
    exact List.mem_map_of_mem new
  have fresh := allows.fresh _ listed
  have single := sound.single x old
  rw [same, fresh] at single
  have elapses : op.fired = some e.packet.id := by
    cases fired : op.fired with
    | none => rw [fired] at single; cases single
    | some id =>
      rw [fired] at single
      have := List.count_pos_iff.mp (Nat.lt_of_lt_of_eq Nat.zero_lt_one single.symm)
      rw [Option.mem_toList] at this
      exact this
  exact h.unfired x old (same ▸ elapses)

theorem Grown.entered_count (h : s.Grown op kept offered entered) (allows : s.Allows op)
    {e : Unacknowledged} (new : e ∈ entered) :
    (entered.map (·.packet.id)).count e.packet.id = 1 := by
  have listed : e.packet.id ∈ s.entering op := by
    rw [h.entering_eq]
    exact List.mem_map_of_mem new
  have unused := allows.unused _ listed
  rw [h.history_eq, List.countP_append] at unused
  have atLeast := List.count_pos_iff.mpr (List.mem_map_of_mem (f := fun x => x.packet.id) new)
  have counted : (entered.map (·.packet.id)).count e.packet.id =
      entered.countP (·.packet.id == e.packet.id) := by
    rw [List.count_eq_countP, List.countP_map]
    rfl
  omega

theorem Grown.distinct (h : s.Grown op kept offered entered) (sound : s.Sound)
    (allows : s.Allows op) : ((kept ++ entered).map (·.packet.id)).Nodup := by
  rw [List.map_append, List.nodup_append]
  refine ⟨(h.older.map _).nodup sound.distinct, ?_, ?_⟩
  · rw [List.nodup_iff_count_le_one]
    intro id
    by_cases member : id ∈ entered.map (·.packet.id)
    · obtain ⟨e, new, rfl⟩ := List.mem_map.mp member
      exact Nat.le_of_eq (h.entered_count allows new)
    · rw [List.count_eq_zero.mpr member]
      exact Nat.zero_le _
  · intro a listed b added
    obtain ⟨x, old, rfl⟩ := List.mem_map.mp listed
    obtain ⟨e, new, rfl⟩ := List.mem_map.mp added
    exact h.entered_fresh sound allows new (h.older.subset old)

theorem count_fired_eq_zero {id : MessageId} (unfired : op.fired ≠ some id) :
    op.fired.toList.count id = 0 := by
  rw [List.count_eq_zero, Option.mem_toList]
  exact unfired

theorem fired_le (sound : s.Sound) (allows : s.Allows op) (id : MessageId) :
    s.fired.count id + op.fired.toList.count id ≤ s.node.radio.retransmits.count id := by
  have balanced := sound.balanced id
  by_cases elapses : op.fired = some id
  · have waits := allows.once id elapses
    rw [outstanding] at waits
    rw [elapses, Option.toList_some, List.count_singleton_self]
    omega
  · rw [count_fired_eq_zero elapses]
    exact balanced

/-- An operation adds the events that it asks for to those outstanding, and takes off the one
that elapses. -/
theorem outstanding_step (sound : s.Sound) (allows : s.Allows op) {asked : List MessageId}
    (retransmits : (s.step op).node.radio.retransmits = s.node.radio.retransmits ++ asked)
    (id : MessageId) :
    (s.step op).fired.count id ≤ (s.step op).node.radio.retransmits.count id ∧
      (s.step op).outstanding id + op.fired.toList.count id =
        s.outstanding id + asked.count id := by
  have elapsed := fired_le sound allows id
  have fired : (s.step op).fired = s.fired ++ op.fired.toList := rfl
  rw [outstanding, outstanding, retransmits, fired, List.count_append, List.count_append]
  omega

theorem Grown.retransmits_eq (h : s.Grown op kept offered entered) :
    (s.step op).node.radio.retransmits =
      s.node.radio.retransmits ++ entered.map (·.packet.id) := h.radio.retransmits

theorem Grown.entered_unused (h : s.Grown op kept offered entered) (sound : s.Sound)
    (allows : s.Allows op) {e : Unacknowledged} (old : e ∈ s.history) :
    (entered.map (·.packet.id)).count e.packet.id = 0 := by
  rw [List.count_eq_zero]
  intro again
  obtain ⟨x, new, same⟩ := List.mem_map.mp again
  exact h.entered_fresh sound allows new old same.symm

theorem Grown.entered_fits (h : s.Grown op kept offered entered) {e : Unacknowledged}
    (new : e ∈ entered) : e.packet.serializedLength ≤ datagramBuffer := by
  have opened : (e.peer, e.packet) ∈ (offered.filter (·.enters)).map fun t =>
      (t.peer, t.packet) := by
    rw [← h.radio.opening]
    exact List.mem_map_of_mem new
  obtain ⟨t, taken, same⟩ := List.mem_map.mp opened
  rw [← (Prod.mk.inj same).2]
  exact (h.radio.plain t (List.mem_filter.mp taken).1).1.fits

theorem Grown.sound (h : s.Grown op kept offered entered) (sound : s.Sound)
    (allows : s.Allows op) : (s.step op).Sound := by
  have config : (s.step op).node.radio.config = s.node.radio.config := h.radio.config
  have events := outstanding_step sound allows h.retransmits_eq
  refine ⟨sound.ordered.of_config config, ?_, fun id => (events id).1, fun e member => ?_,
    fun e member => ?_, fun e member => ?_⟩
  · rw [h.history_eq]
    exact h.distinct sound allows
  · have balance := (events e.packet.id).2
    rw [h.history_eq] at member
    rcases List.mem_append.mp member with old | new
    · have single := sound.single e (h.older.subset old)
      rw [h.entered_unused sound allows (h.older.subset old),
        count_fired_eq_zero (h.unfired e (h.older.subset old))] at balance
      omega
    · have fresh := allows.fresh e.packet.id (by
        rw [h.entering_eq]
        exact List.mem_map_of_mem new)
      rw [h.entered_count allows new] at balance
      omega
  · rw [config]
    rw [h.history_eq] at member
    rcases List.mem_append.mp member with old | new
    · exact sound.counted e (h.older.subset old)
    · obtain ⟨attempts, maxAttempts⟩ := h.radio.first e new
      exact ⟨by omega, by omega, maxAttempts⟩
  · rw [h.history_eq] at member
    rcases List.mem_append.mp member with old | new
    · exact sound.fits e (h.older.subset old)
    · exact h.entered_fits new

/-! ## One entry among the others -/

section

variable {l : List Unacknowledged} {i : Nat} {e x b : Unacknowledged}

theorem elsewhere_iff (distinct : (l.map (·.packet.id)).Nodup) (found : l[i]? = some e) :
    (∃ j, j ≠ i ∧ l[j]? = some x) ↔ x ∈ l ∧ x.packet.id ≠ e.packet.id := by
  obtain ⟨inside, here⟩ := List.getElem?_eq_some_iff.mp found
  constructor
  · rintro ⟨j, other, there⟩
    obtain ⟨inside', there'⟩ := List.getElem?_eq_some_iff.mp there
    refine ⟨List.mem_of_getElem? there, fun same => other ?_⟩
    have within : i < (l.map (·.packet.id)).length := by simpa using inside
    have within' : j < (l.map (·.packet.id)).length := by simpa using inside'
    have equal : (l.map (·.packet.id))[j] = (l.map (·.packet.id))[i] := by
      simp only [List.getElem_map, here, there', same]
    exact distinct.getElem_inj_iff.mp equal
  · rintro ⟨member, different⟩
    obtain ⟨j, there⟩ := List.mem_iff_getElem?.mp member
    refine ⟨j, fun same => different ?_, there⟩
    subst same
    rw [found] at there
    cases there
    rfl

theorem mem_erased (distinct : (l.map (·.packet.id)).Nodup) (found : l[i]? = some e) :
    x ∈ l.eraseIdx i ↔ x ∈ l ∧ x.packet.id ≠ e.packet.id := by
  rw [← elsewhere_iff distinct found, List.mem_eraseIdx_iff_getElem?]

theorem mem_replaced (distinct : (l.map (·.packet.id)).Nodup) (found : l[i]? = some e) :
    x ∈ l.set i b ↔ x = b ∨ x ∈ l ∧ x.packet.id ≠ e.packet.id := by
  obtain ⟨inside, -⟩ := List.getElem?_eq_some_iff.mp found
  rw [← elsewhere_iff distinct found, List.mem_iff_getElem?]
  constructor
  · rintro ⟨j, there⟩
    rw [List.getElem?_set] at there
    split at there
    · exact .inl (Option.some.inj there).symm
    · next other => exact .inr ⟨j, Ne.symm other, there⟩
  · rintro (rfl | ⟨j, other, there⟩)
    · exact ⟨i, by rw [List.getElem?_set_self inside]⟩
    · exact ⟨j, by rw [List.getElem?_set_ne (Ne.symm other), there]⟩

theorem erased_eq (distinct : (l.map (·.packet.id)).Nodup) (found : l[i]? = some e) :
    l.eraseIdx i = l.filter (·.packet.id != e.packet.id) := by
  induction l generalizing i with
  | nil => cases found
  | cons a l ih =>
    obtain ⟨first, later⟩ := List.nodup_cons.mp distinct
    cases i with
    | zero =>
      cases found
      rw [List.eraseIdx_cons_zero, List.filter_cons_of_neg (by simp), eq_comm, List.filter_eq_self]
      intro x member
      rw [bne_iff_ne]
      intro same
      exact first (List.mem_map.mpr ⟨x, member, same⟩)
    | succ i =>
      rw [List.getElem?_cons_succ] at found
      have other : a.packet.id ≠ e.packet.id := fun same =>
        first (List.mem_map.mpr ⟨e, List.mem_of_getElem? found, same.symm⟩)
      rw [List.eraseIdx_cons_succ, List.filter_cons_of_pos (by simpa using other), ih later found]

theorem ids_replaced (found : l[i]? = some e) (same : b.packet.id = e.packet.id) :
    (l.set i b).map (·.packet.id) = l.map (·.packet.id) := by
  obtain ⟨inside, rfl⟩ := List.getElem?_eq_some_iff.mp found
  rw [List.map_set, same]
  have within : i < (l.map (·.packet.id)).length := by simpa using inside
  have whole := List.set_getElem_self within
  rwa [List.getElem_map] at whole

end

/-! ## Steps -/

variable {i : Nat} {e : Unacknowledged} {services : List Service}

theorem Sound.repeated (sound : s.Sound) (allows : s.Allows op)
    (found : s.history[i]? = some e) (fires : op = .fire (.retransmit e.packet.id) services)
    (more : e.backoff.attempts < e.backoff.maxAttempts)
    (repeats : s.node.Repeats (op.apply s.node) i e) : (s.step op).Sound := by
  have history : (s.step op).history = s.history.set i (Node.again e) := repeats.unacknowledged
  have config : (s.step op).node.radio.config = s.node.radio.config := repeats.config
  have elapses : op.fired.toList = [e.packet.id] := by rw [fires]; rfl
  have events := outstanding_step sound allows repeats.retransmits
  have old : ∀ x ∈ (s.step op).history, ∃ y ∈ s.history, y.packet = x.packet ∧
      (y = x ∨ x = Node.again y ∧ y.backoff.attempts < y.backoff.maxAttempts) := by
    intro x member
    rw [history, mem_replaced sound.distinct found] at member
    rcases member with rfl | ⟨member, -⟩
    · exact ⟨e, List.mem_of_getElem? found, rfl, .inr ⟨rfl, more⟩⟩
    · exact ⟨x, member, rfl, .inl rfl⟩
  refine ⟨sound.ordered.of_config config, ?_, fun id => (events id).1, fun x member => ?_,
    fun x member => ?_, fun x member => ?_⟩
  · rw [history, ids_replaced (b := Node.again e) found rfl]
    exact sound.distinct
  · obtain ⟨y, earlier, same, -⟩ := old x member
    have single := sound.single y earlier
    have balance := (events x.packet.id).2
    rw [elapses, ← same] at balance
    rw [← same]
    omega
  · obtain ⟨y, earlier, -, rfl | ⟨rfl, less⟩⟩ := old x member
    · rw [config]
      exact sound.counted y earlier
    · obtain ⟨least, -, maxAttempts⟩ := sound.counted y earlier
      rw [config]
      exact ⟨by simp [Node.again], by simp only [Node.again]; omega, maxAttempts⟩
  · obtain ⟨y, earlier, same, -⟩ := old x member
    rw [← same]
    exact sound.fits y earlier

theorem Sound.gaveUp (sound : s.Sound) (allows : s.Allows op)
    (found : s.history[i]? = some e) (fires : op = .fire (.retransmit e.packet.id) services)
    (givesUp : s.node.GivesUp (op.apply s.node) i e services) : (s.step op).Sound := by
  have history : (s.step op).history = s.history.eraseIdx i := givesUp.radio.unacknowledged
  have config : (s.step op).node.radio.config = s.node.radio.config := givesUp.radio.config
  have elapses : op.fired.toList = [e.packet.id] := by rw [fires]; rfl
  have retransmits : (s.step op).node.radio.retransmits = s.node.radio.retransmits ++ [] :=
    givesUp.radio.retransmits.trans (List.append_nil _).symm
  have events := outstanding_step sound allows retransmits
  have old : ∀ x ∈ (s.step op).history, x ∈ s.history ∧ x.packet.id ≠ e.packet.id := by
    intro x member
    rwa [history, mem_erased sound.distinct found] at member
  refine ⟨sound.ordered.of_config config, ?_, fun id => (events id).1, fun x member => ?_,
    fun x member => ?_, fun x member => ?_⟩
  · rw [history]
    exact ((List.eraseIdx_sublist _ _).map _).nodup sound.distinct
  · obtain ⟨member, other⟩ := old x member
    have single := sound.single x member
    have balance := (events x.packet.id).2
    rw [elapses, List.count_singleton, if_neg (by simpa using Ne.symm other),
      List.count_nil] at balance
    omega
  · rw [config]
    exact sound.counted x (old x member).1
  · exact sound.fits x (old x member).1

/-- What an operation does to the history, told from the entries. -/
inductive Shape (s : Run) (op : Operation) : Prop
  | grown {kept : List Unacknowledged} {offered : List Transmission}
      {entered : List Unacknowledged} (grown : s.Grown op kept offered entered)
      (calm : Radio.Calm offered ∨ ∃ t, offered = [t] ∧ op.RepeatsAnswer s.node t)
      (expiries : (s.step op).node.expiries = s.node.expiries)
      (keeps : ∀ e ∈ s.history, e ∈ kept ↔ ¬ op.Answers s.node.radio.self e)
  | repeated {i : Nat} {e : Unacknowledged} {services : List Service}
      (found : s.history[i]? = some e)
      (fires : op = .fire (.retransmit e.packet.id) services)
      (more : e.backoff.attempts < e.backoff.maxAttempts)
      (repeats : s.node.Repeats (op.apply s.node) i e)
  | gaveUp {i : Nat} {e : Unacknowledged} {services : List Service}
      (found : s.history[i]? = some e)
      (fires : op = .fire (.retransmit e.packet.id) services)
      (spent : e.backoff.maxAttempts ≤ e.backoff.attempts)
      (givesUp : s.node.GivesUp (op.apply s.node) i e services)

theorem Sound.shape (sound : s.Sound) (allows : s.Allows op) : s.Shape op := by
  cases op.apply_effect s.node allows.unasked with
  | grows grows unanswered unfired =>
    obtain ⟨offered, entered, radio, calm⟩ := grows.radio sound.ordered
    exact .grown ⟨List.Sublist.refl s.history, radio, unfired⟩ (.inl calm) grows.expiries
      fun e member => ⟨fun _ => unanswered e member, fun _ => member⟩
  | duplicate repeats radio expiries unanswered =>
    have unfired : ∀ e ∈ s.history, op.fired ≠ some e.packet.id := by
      obtain ⟨_, _, _, _, rfl, -⟩ := repeats
      rintro e - ⟨⟩
    exact .grown ⟨List.Sublist.refl s.history, radio, unfired⟩ (.inr ⟨_, rfl, repeats⟩) expiries
      fun e member => ⟨fun _ => unanswered e member, fun _ => member⟩
  | @answered i x found answers grows =>
    obtain ⟨offered, entered, radio, calm⟩ := grows.radio sound.ordered
    have unfired : ∀ e ∈ s.history, op.fired ≠ some e.packet.id := by
      obtain ⟨_, _, _, rfl, -⟩ := answers
      rintro e - ⟨⟩
    refine .grown ⟨List.eraseIdx_sublist s.history i, radio, unfired⟩ (.inl calm) grows.expiries
      fun e member => ?_
    rw [mem_erased sound.distinct found]
    constructor
    · rintro ⟨-, other⟩ again
      exact other (again.same_id answers)
    · refine fun unanswered => ⟨member, fun same => unanswered ?_⟩
      rwa [List.inj_on_of_nodup_map sound.distinct member (List.mem_of_getElem? found) same]
  | repeated found fires more repeats => exact .repeated found fires more repeats
  | gaveUp found fires spent givesUp => exact .gaveUp found fires spent givesUp

theorem Sound.step (sound : s.Sound) (allows : s.Allows op) : (s.step op).Sound := by
  cases sound.shape allows with
  | grown grown => exact grown.sound sound allows
  | repeated found fires more repeats => exact sound.repeated allows found fires more repeats
  | gaveUp found fires spent givesUp => exact sound.gaveUp allows found fires givesUp

theorem Sound.after (sound : s.Sound) {ops : List Operation} (admissible : s.Admissible ops) :
    (s.after ops).Sound := by
  induction ops generalizing s with
  | nil => exact sound
  | cons op rest ih => exact ih (sound.step admissible.1) admissible.2

end Run
end CoapNode
