import CoapNode.Proofs.Node.Retransmission
/-! The life of a confirmable message: how it enters the history, what is sent in its name,
and how it leaves. -/
namespace CoapNode

/-- Made in the name of the message with this id: it is the transmission by which the
message entered, or a repetition. -/
def Transmission.isOf (t : Transmission) (id : MessageId) : Bool :=
  t.activity == .retransmitting id || t.enters && t.packet.id == id

/-- The transmission goes to the entry's peer and is the entry's message, byte for byte. -/
structure Unacknowledged.Sends (e : Unacknowledged) (t : Transmission) : Prop where
  peer : t.peer = e.peer
  packet : t.packet = e.packet
  bytes : t.bytes = e.packet.datagram

/-- The same message, however often it was sent. -/
def Unacknowledged.Same (e x : Unacknowledged) : Prop := x.peer = e.peer ∧ x.packet = e.packet

namespace Run

variable {s : Run} {op : Operation} {kept : List Unacknowledged} {offered : List Transmission}
  {entered : List Unacknowledged} {i : Nat} {e x : Unacknowledged} {services : List Service}

/-! ## Transmissions of one operation -/

theorem repeated_attempted (sound : s.Sound) (found : s.history[i]? = some e)
    (repeats : s.node.Repeats (op.apply s.node) i e) :
    ∃ refusal, (s.step op).node.radio.transmissions = s.node.radio.transmissions ++
        s.attempted op ∧
      s.attempted op =
        [⟨e.peer, e.packet, e.packet.datagram, .retransmitting e.packet.id, refusal⟩] := by
  obtain ⟨refusal, whole⟩ := repeats.transmissions (sound.fits e (List.mem_of_getElem? found))
  have whole' : (s.step op).node.radio.transmissions = _ := whole
  have this : s.attempted op =
      [⟨e.peer, e.packet, e.packet.datagram, .retransmitting e.packet.id, refusal⟩] := by
    rw [attempted, whole', List.drop_left]
  exact ⟨refusal, by rw [this, whole'], this⟩

theorem gaveUp_attempted (givesUp : s.node.GivesUp (op.apply s.node) i e services) :
    (s.step op).node.radio.transmissions = s.node.radio.transmissions ∧ s.attempted op = [] := by
  have whole : (s.step op).node.radio.transmissions = s.node.radio.transmissions :=
    givesUp.radio.transmissions
  exact ⟨whole, by rw [attempted, whole, List.drop_length]⟩

theorem Sound.transmissions_step (sound : s.Sound) (allows : s.Allows op) :
    (s.step op).node.radio.transmissions = s.node.radio.transmissions ++ s.attempted op := by
  cases sound.shape allows with
  | grown grown =>
    rw [grown.attempted_eq]
    exact grown.radio.transmissions
  | repeated found _ _ repeats =>
    obtain ⟨_, whole, -⟩ := repeated_attempted sound found repeats
    exact whole
  | gaveUp _ _ _ givesUp =>
    obtain ⟨whole, none⟩ := gaveUp_attempted givesUp
    rw [whole, none, List.append_nil]

theorem isOf_iff_of_plain {t : Transmission} (plain : ∀ id, t.activity ≠ .retransmitting id)
    (id : MessageId) : t.isOf id = true ↔ t.enters = true ∧ t.packet.id = id := by
  simp [Transmission.isOf, plain id]

theorem Grown.entered_of_isOf (h : s.Grown op kept offered entered) {t : Transmission}
    (member : t ∈ offered) {id : MessageId} (named : t.isOf id = true) :
    ∃ e ∈ entered, e.packet.id = id ∧ e.Sends t := by
  obtain ⟨whole, plain⟩ := h.radio.plain t member
  obtain ⟨enters, rfl⟩ := (isOf_iff_of_plain plain id).mp named
  have opened : (t.peer, t.packet) ∈ entered.map fun e => (e.peer, e.packet) := by
    rw [h.radio.opening]
    exact List.mem_map_of_mem (List.mem_filter.mpr ⟨member, enters⟩)
  obtain ⟨e, new, same⟩ := List.mem_map.mp opened
  obtain ⟨samePeer, samePacket⟩ := Prod.mk.inj same
  exact ⟨e, new, by rw [samePacket], samePeer.symm, samePacket.symm,
    by rw [samePacket, whole.bytes]⟩

theorem Grown.named_length (h : s.Grown op kept offered entered) (allows : s.Allows op)
    (new : e ∈ entered) : (offered.filter (·.isOf e.packet.id)).length = 1 := by
  have named : offered.filter (·.isOf e.packet.id) =
      (offered.filter (·.enters)).filter (·.packet.id == e.packet.id) := by
    rw [List.filter_filter]
    apply List.filter_congr
    intro t member
    have plain := (h.radio.plain t member).2 e.packet.id
    simp [Transmission.isOf, plain, Bool.and_comm]
  have counted := h.entered_count allows new
  rw [← h.entering_eq, entering, h.attempted_eq, List.count_eq_countP, List.countP_map,
    List.countP_eq_length_filter] at counted
  rw [named]
  exact counted

/-- What an operation sends in the name of an id: nothing, the message that enters, or the
message of an entry once more. -/
inductive Named (s : Run) (op : Operation) (id : MessageId) : Prop
  | silent (none : (s.attempted op).filter (·.isOf id) = [])
      (old : ∀ x ∈ (s.step op).history, x.packet.id = id → x ∈ s.history)
  | enters {t : Transmission} {x : Unacknowledged}
      (one : (s.attempted op).filter (·.isOf id) = [t]) (enters : t.enters = true)
      (new : x ∈ (s.step op).history) (same : x.packet.id = id) (sends : x.Sends t)
      (first : x.backoff.attempts = 1) (absent : ∀ y ∈ s.history, y.packet.id ≠ id)
  | repeated {t : Transmission} {e : Unacknowledged}
      (one : (s.attempted op).filter (·.isOf id) = [t]) (activity : t.activity = .retransmitting id)
      (old : e ∈ s.history) (same : e.packet.id = id) (sends : e.Sends t)
      (more : e.backoff.attempts < e.backoff.maxAttempts)
      (again : Node.again e ∈ (s.step op).history)

theorem Grown.named (h : s.Grown op kept offered entered) (sound : s.Sound) (allows : s.Allows op)
    (id : MessageId) : s.Named op id := by
  by_cases listed : ∃ e ∈ entered, e.packet.id = id
  · obtain ⟨e, new, rfl⟩ := listed
    obtain ⟨t, one⟩ := List.length_eq_one_iff.mp (h.named_length allows new)
    obtain ⟨offered, named⟩ := List.mem_filter.mp (one ▸ List.mem_singleton.mpr rfl)
    obtain ⟨x, new', same, sends⟩ := h.entered_of_isOf offered named
    have alike : x = e := List.inj_on_of_nodup_map (h.distinct sound allows)
      (List.mem_append_right _ new') (List.mem_append_right _ new) same
    have enters := ((isOf_iff_of_plain (h.radio.plain t offered).2 _).mp named).1
    refine .enters (by rw [h.attempted_eq]; exact one) enters ?_ rfl (alike ▸ sends)
      (h.radio.first e new).1 fun y old => h.entered_fresh sound allows new old
    rw [h.history_eq]
    exact List.mem_append_right _ new
  · refine .silent ?_ fun x member same => ?_
    · rw [h.attempted_eq, List.filter_eq_nil_iff]
      intro t offered named
      obtain ⟨e, new, same, -⟩ := h.entered_of_isOf offered named
      exact listed ⟨e, new, same⟩
    · rw [h.history_eq] at member
      rcases List.mem_append.mp member with old | new
      · exact h.older.subset old
      · exact absurd ⟨x, new, same⟩ listed

theorem Sound.named (sound : s.Sound) (allows : s.Allows op) (id : MessageId) : s.Named op id := by
  cases sound.shape allows with
  | grown grown => exact grown.named sound allows id
  | @repeated i e services found fires more repeats =>
    obtain ⟨refusal, -, attempted⟩ := repeated_attempted sound found repeats
    have history : (s.step op).history = s.history.set i (Node.again e) := repeats.unacknowledged
    by_cases same : e.packet.id = id
    · subst same
      have one : (s.attempted op).filter (·.isOf e.packet.id) =
          [⟨e.peer, e.packet, e.packet.datagram, .retransmitting e.packet.id, refusal⟩] := by
        rw [attempted, List.filter_cons_of_pos (by simp [Transmission.isOf])]
        rfl
      refine .repeated one rfl (List.mem_of_getElem? found) rfl ⟨rfl, rfl, rfl⟩ more ?_
      rw [history, mem_replaced sound.distinct found]
      exact .inl rfl
    · refine .silent ?_ fun x member named => ?_
      · rw [attempted, List.filter_cons_of_neg (by simp [Transmission.isOf, Transmission.enters,
          same])]
        rfl
      · rw [history, mem_replaced sound.distinct found] at member
        rcases member with rfl | ⟨old, -⟩
        · exact absurd named same
        · exact old
  | @gaveUp i e services found fires spent givesUp =>
    have history : (s.step op).history = s.history.eraseIdx i := givesUp.radio.unacknowledged
    refine .silent (by rw [(gaveUp_attempted givesUp).2]; rfl) fun x member _ => ?_
    rw [history] at member
    exact (List.eraseIdx_sublist _ _).subset member

/-- A confirmable message is offered in its own name, or refused when it was to enter, or is
the stored answer to a duplicate. -/
theorem Sound.confirmable (sound : s.Sound) (allows : s.Allows op) {t : Transmission}
    (offered : t ∈ s.attempted op) (kind : t.packet.kind = .confirmable) :
    t.isOf t.packet.id = true ∨ (t.activity = .sending t.packet.id ∧ t.refusal ≠ none) ∨
      op.RepeatsAnswer s.node t := by
  cases sound.shape allows with
  | grown grown calm =>
    rw [grown.attempted_eq] at offered
    rcases calm with calm | ⟨answer, rfl, repeats⟩
    · have activity := calm t offered kind
      cases refusal : t.refusal with
      | none =>
        exact .inl (by simp [Transmission.isOf, Transmission.enters, activity, kind, refusal])
      | some code => exact .inr (.inl ⟨activity, by simp⟩)
    · rw [List.mem_singleton.mp offered]
      exact .inr (.inr repeats)
  | repeated found fires more repeats =>
    obtain ⟨refusal, -, attempted⟩ := repeated_attempted sound found repeats
    rw [attempted] at offered
    rw [List.mem_singleton.mp offered]
    exact .inl (by simp [Transmission.isOf])
  | gaveUp found fires spent givesUp =>
    rw [(gaveUp_attempted givesUp).2] at offered
    cases offered

/-! ## Leaving -/

/-- The event of an entry that has used up its attempts. -/
def Exhausts (s : Run) (op : Operation) (e : Unacknowledged) (services : List Service) : Prop :=
  op = .fire (.retransmit e.packet.id) services ∧
    e.backoff.attempts = max 1 s.node.radio.config.maxAttempts

theorem not_answers_fire {event : TimerEvent} {self : NodeId} :
    ¬ (Operation.fire event services).Answers self e := by
  rintro ⟨_, _, _, same, -⟩
  cases same

theorem Sound.eq_of_id (sound : s.Sound) (one : e ∈ s.history) (other : x ∈ s.history)
    (same : e.packet.id = x.packet.id) : e = x :=
  List.inj_on_of_nodup_map sound.distinct one other same

theorem Sound.same_of_id {e x : Unacknowledged} (sound : s.Sound) (allows : s.Allows op)
    (member : e ∈ s.history) (listed : x ∈ (s.step op).history)
    (same : x.packet.id = e.packet.id) : e.Same x := by
  cases sound.named allows e.packet.id with
  | silent _ old =>
    cases sound.eq_of_id (old x listed same) member same
    exact ⟨rfl, rfl⟩
  | enters _ _ _ _ _ _ absent => exact absurd rfl (absent e member)
  | repeated _ _ old alike _ _ again =>
    cases sound.eq_of_id old member alike
    cases (sound.step allows).eq_of_id listed again same
    exact ⟨rfl, rfl⟩

theorem Grown.stays_iff (h : s.Grown op kept offered entered) (sound : s.Sound)
    (allows : s.Allows op) (member : e ∈ s.history) :
    (∃ x ∈ (s.step op).history, e.Same x) ↔ e ∈ kept := by
  constructor
  · rintro ⟨x, listed, -, same⟩
    rw [h.history_eq] at listed
    rcases List.mem_append.mp listed with old | new
    · rwa [sound.eq_of_id member (h.older.subset old) (by rw [same])]
    · exact absurd (by rw [same]) (h.entered_fresh sound allows new member)
  · intro listed
    exact ⟨e, by rw [h.history_eq]; exact List.mem_append_left _ listed, rfl, rfl⟩

/-- An entry leaves when it is answered, and when its event finds no attempt left. -/
theorem Sound.leaves_iff (sound : s.Sound) (allows : s.Allows op) (member : e ∈ s.history) :
    (¬ ∃ x ∈ (s.step op).history, e.Same x) ↔
      op.Answers s.node.radio.self e ∨ ∃ services, s.Exhausts op e services := by
  obtain ⟨least, most, maxAttempts⟩ := sound.counted e member
  cases sound.shape allows with
  | @grown kept offered entered grown _ _ keeps =>
    have unexhausted : ¬ ∃ services, s.Exhausts op e services := by
      rintro ⟨services, rfl, -⟩
      exact grown.unfired e member rfl
    rw [grown.stays_iff sound allows member, keeps e member, not_not, or_iff_left unexhausted]
  | @repeated i x services found fires more repeats =>
    have history : (s.step op).history = s.history.set i (Node.again x) := repeats.unacknowledged
    have stays : ∃ y ∈ (s.step op).history, e.Same y := by
      rw [history]
      by_cases same : e.packet.id = x.packet.id
      · cases sound.eq_of_id member (List.mem_of_getElem? found) same
        exact ⟨Node.again e, (mem_replaced sound.distinct found).mpr (.inl rfl), rfl, rfl⟩
      · exact ⟨e, (mem_replaced sound.distinct found).mpr (.inr ⟨member, same⟩), rfl, rfl⟩
    refine ⟨fun leaves => absurd stays leaves, ?_⟩
    rintro (answers | ⟨services', again, exhausted⟩)
    · rw [fires] at answers
      exact absurd answers not_answers_fire
    · rw [fires] at again
      cases sound.eq_of_id member (List.mem_of_getElem? found)
        (TimerEvent.retransmit.inj (Operation.fire.inj again).1).symm
      omega
  | @gaveUp i x services found fires spent givesUp =>
    have history : (s.step op).history = s.history.eraseIdx i := givesUp.radio.unacknowledged
    rw [history]
    by_cases same : e.packet.id = x.packet.id
    · cases sound.eq_of_id member (List.mem_of_getElem? found) same
      refine ⟨fun _ => .inr ⟨services, fires, by omega⟩, ?_⟩
      rintro - ⟨y, listed, -, alike⟩
      exact ((mem_erased sound.distinct found).mp listed).2 (by rw [alike])
    · refine ⟨fun leaves => absurd ⟨e, (mem_erased sound.distinct found).mpr ⟨member, same⟩,
        rfl, rfl⟩ leaves, ?_⟩
      rintro (answers | ⟨services', again, -⟩)
      · rw [fires] at answers
        exact absurd answers not_answers_fire
      · rw [fires] at again
        exact absurd (TimerEvent.retransmit.inj (Operation.fire.inj again).1).symm same

/-! ## Expiry -/

/-- Every service lent to the event that finds no attempt left is told, and nobody else. -/
theorem Sound.exhausted (sound : s.Sound) (allows : s.Allows op) (member : e ∈ s.history)
    (exhausts : s.Exhausts op e services) :
    (∃ log, (s.step op).node = (Service.forEach (·.expired · e.peer e.packet.token) services
        { s.node with radio := { s.node.radio with
          unacknowledged := s.history.filter (·.packet.id != e.packet.id), log } }).2) ∧
      (s.step op).node.expiries = s.node.expiries ++
        List.replicate (services.countP Node.listens) (e.peer, e.packet.token) := by
  obtain ⟨least, most, maxAttempts⟩ := sound.counted e member
  obtain ⟨fires, attempts⟩ := exhausts
  cases sound.shape allows with
  | grown grown => exact absurd (by rw [fires]; rfl) (grown.unfired e member)
  | @repeated i x services' found fires' more repeats =>
    rw [fires] at fires'
    cases sound.eq_of_id member (List.mem_of_getElem? found)
      (TimerEvent.retransmit.inj (Operation.fire.inj fires').1)
    omega
  | @gaveUp i x services' found fires' spent givesUp =>
    rw [fires] at fires'
    obtain ⟨sameEvent, rfl⟩ := Operation.fire.inj fires'
    cases sound.eq_of_id member (List.mem_of_getElem? found)
      (TimerEvent.retransmit.inj sameEvent)
    refine ⟨?_, givesUp.expiries⟩
    obtain ⟨log, told⟩ := givesUp.told
    exact ⟨log, by rw [← erased_eq sound.distinct found]; exact told⟩

theorem Sound.unexpired (sound : s.Sound) (allows : s.Allows op)
    (none : ∀ e ∈ s.history, ∀ services, ¬ s.Exhausts op e services) :
    (s.step op).node.expiries = s.node.expiries := by
  cases sound.shape allows with
  | grown _ _ expiries => exact expiries
  | repeated found fires more repeats => exact repeats.expiries
  | @gaveUp i x services found fires spent givesUp =>
    obtain ⟨least, most, maxAttempts⟩ := sound.counted x (List.mem_of_getElem? found)
    exact absurd ⟨fires, by omega⟩ (none x (List.mem_of_getElem? found) services)

/-! ## Leftover events -/

theorem Sound.asks (sound : s.Sound) (allows : s.Allows op) :
    ∃ asked, (s.step op).node.radio.retransmits = s.node.radio.retransmits ++ asked ∧
      ∀ id ∈ asked, id ∈ s.entering op ∨ op.fired = some id := by
  cases sound.shape allows with
  | grown grown =>
    refine ⟨_, grown.retransmits_eq, fun id asked => .inl ?_⟩
    rw [grown.entering_eq]
    exact asked
  | repeated _ fires _ repeats =>
    refine ⟨_, repeats.retransmits, fun id asked => .inr ?_⟩
    rw [fires, List.mem_singleton.mp asked]
    rfl
  | gaveUp _ _ _ givesUp =>
    exact ⟨[], givesUp.radio.retransmits.trans (List.append_nil _).symm, by simp⟩

theorem Sound.waits_step (sound : s.Sound) (allows : s.Allows op) {id : MessageId}
    (waits : s.outstanding id = 1) (unfired : op.fired ≠ some id) :
    id ∉ s.entering op ∧ (s.step op).outstanding id = 1 := by
  have elapses := count_fired_eq_zero unfired
  have unentered : id ∉ s.entering op := by
    intro enters
    have fresh := allows.fresh id enters
    omega
  obtain ⟨asked, retransmits, reason⟩ := sound.asks allows
  have unasked : asked.count id = 0 := by
    rw [List.count_eq_zero]
    intro member
    rcases reason id member with enters | fired
    · exact unentered enters
    · exact unfired fired
  have balance := (outstanding_step sound allows retransmits id).2
  exact ⟨unentered, by omega⟩

/-- While its event is still to come, the id of a message that left stays unused. -/
theorem Sound.leftover_step (sound : s.Sound) (allows : s.Allows op) {id : MessageId}
    (absent : ∀ x ∈ s.history, x.packet.id ≠ id) (waits : s.outstanding id = 1)
    (unfired : op.fired ≠ some id) :
    (∀ x ∈ (s.step op).history, x.packet.id ≠ id) ∧ (s.step op).outstanding id = 1 := by
  obtain ⟨unentered, still⟩ := sound.waits_step allows waits unfired
  refine ⟨fun x member same => ?_, still⟩
  cases sound.named allows id with
  | silent _ old => exact absent x (old x member same) same
  | @enters t y one enters new named sends =>
    have offered := List.mem_of_mem_filter (one ▸ List.mem_singleton.mpr rfl : t ∈ _)
    refine unentered (List.mem_map.mpr ⟨t, List.mem_filter.mpr ⟨offered, enters⟩, ?_⟩)
    rw [sends.packet, named]
  | repeated _ _ old named => exact absent _ old named

theorem Sound.leftover (sound : s.Sound) {id : MessageId} {later : List Operation}
    (admissible : s.Admissible later) (absent : ∀ x ∈ s.history, x.packet.id ≠ id)
    (waits : s.outstanding id = 1) (unfired : ∀ op ∈ later, op.fired ≠ some id) :
    (∀ x ∈ (s.after later).history, x.packet.id ≠ id) ∧ (s.after later).outstanding id = 1 := by
  induction later generalizing s with
  | nil => exact ⟨absent, waits⟩
  | cons op rest ih =>
    obtain ⟨absent', waits'⟩ := sound.leftover_step admissible.1 absent waits
      (unfired op (List.mem_cons_self ..))
    exact ih (sound.step admissible.1) admissible.2 absent' waits'
      fun op member => unfired op (List.mem_cons_of_mem _ member)

theorem Sound.answered_waits (sound : s.Sound) (allows : s.Allows op) (member : e ∈ s.history)
    (answers : op.Answers s.node.radio.self e) :
    (∀ x ∈ (s.step op).history, x.packet.id ≠ e.packet.id) ∧
      (s.step op).outstanding e.packet.id = 1 := by
  have unfired : op.fired ≠ some e.packet.id := by
    obtain ⟨_, _, _, rfl, -⟩ := answers
    rintro ⟨⟩
  have gone := (sound.leaves_iff allows member).mpr (.inl answers)
  exact ⟨fun x listed same => gone ⟨x, listed, sound.same_of_id allows member listed same⟩,
    (sound.waits_step allows (sound.single e member) unfired).2⟩

theorem fire_absent {id : MessageId} (absent : ∀ x ∈ s.history, x.packet.id ≠ id)
    (services : List Service) :
    s.node.fire (.retransmit id) services = (s.node, services, .ok ()) := by
  rcases s.node.retransmit_cases id services with ⟨-, same⟩ | ⟨i, x, found, same, -⟩
  · exact same
  · exact absurd same (absent x (List.mem_of_getElem? found))

end Run
end CoapNode
