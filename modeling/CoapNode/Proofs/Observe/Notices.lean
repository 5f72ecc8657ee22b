import CoapNode.Proofs.Observe.Visits
import CoapNode.Proofs.Observe.Registering
/-! The notifications that the network took of a resource, in order, and the table of observers.
Each entry of the table tells what its peer asked for last and what it was told last. -/
namespace CoapNode

/-! ## Notices -/

/-- A notification that the network took. -/
structure Notice where
  peer : NodeId
  packet : Message
  /-- The status that was notified. -/
  value : Reading
  /-- The clock reading taken for it. -/
  timestamp : Nat
  /-- The request that it answers, if it answers one. -/
  request : Option Message

namespace Notice

def latest? (ledger : List Notice) (peer : NodeId) : Option Notice :=
  (ledger.filter (·.peer == peer)).getLast?

def latestAnswer? (ledger : List Notice) (peer : NodeId) : Option Notice :=
  (ledger.filter fun x => x.peer == peer && x.request.isSome).getLast?

variable {ledger new : List Notice} {peer : NodeId}

theorem latest?_append :
    latest? (ledger ++ new) peer = (latest? new peer).or (latest? ledger peer) := by
  rw [latest?, List.filter_append, List.getLast?_append]
  rfl

theorem latestAnswer?_append :
    latestAnswer? (ledger ++ new) peer =
      (latestAnswer? new peer).or (latestAnswer? ledger peer) := by
  rw [latestAnswer?, List.filter_append, List.getLast?_append]
  rfl

theorem latest?_singleton (x : Notice) :
    latest? [x] peer = if x.peer = peer then some x else none := by
  by_cases mine : x.peer = peer <;> simp [latest?, mine]

theorem latestAnswer?_singleton {x : Notice} (answers : x.request.isSome = true) :
    latestAnswer? [x] peer = if x.peer = peer then some x else none := by
  by_cases mine : x.peer = peer <;> simp [latestAnswer?, mine, answers]

theorem latest?_map (taken : List Transmission) (value : Reading) (now : Nat) :
    latest? (taken.map fun t => ⟨t.peer, t.packet, value, now, none⟩) peer =
      (taken.filter (·.peer == peer)).getLast?.map fun t =>
        ⟨t.peer, t.packet, value, now, none⟩ := by
  rw [latest?, List.filter_map, List.getLast?_map]
  rfl

theorem latestAnswer?_map (taken : List Transmission) (value : Reading) (now : Nat) :
    latestAnswer? (taken.map fun t => ⟨t.peer, t.packet, value, now, none⟩) peer = none := by
  simp [latestAnswer?, List.filter_map, Function.comp_def]

end Notice

/-- The notifications of a visit. While it serves a request to observe the resource may send
another answer too, which has no content. -/
def Visit.notices (s : Observable) : Visit → List Notice
  | .offer n m =>
    match n.radio.now, s.registration? m with
    | .ok now, some _ =>
      (((s.offer n m).2.1.radio.takenSince n.radio).filter (·.packet.code == Code.content)).map
        fun t => ⟨t.peer, t.packet, s.status, now, some m.packet⟩
    | _, _ => []
  | v =>
    match v.radio.now with
    | .error _ => []
    | .ok now =>
      ((v.done s).2.takenSince v.radio).map fun t =>
        ⟨t.peer, t.packet, (v.done s).1.status, now, none⟩

namespace Publisher

/-- Every notification of the turns, the oldest first. -/
def ledger (p : Publisher) : List Turn → List Notice
  | [] => []
  | t :: rest => (p.visit? t).elim [] (·.notices p.resource) ++ (p.step t).ledger rest

end Publisher

/-! ## The table -/

namespace Observer

/-- What the entry says its peer asked for. -/
structure Asked (o : Observer) (request : Message) : Prop where
  get : request.code = Code.get
  observe : request.observe.toBool = true
  token : request.token = o.token
  conditions : Observable.parseConditions [] request.conditions = .ok o.conditions

/-- What the entry says its peer was told. The id is not the notification's if that answered a
request without riding on the acknowledgement. -/
structure Told (o : Observer) (f : Renderer) (x : Notice) : Prop where
  value : x.value = o.lastValue
  timestamp : x.timestamp = o.timestamp
  token : x.packet.token = o.token
  payload : f.payload? o.lastValue = some x.packet.payload
  id : x.packet.id = o.lastId ∨ x.request.isSome = true ∧ x.packet.kind ≠ .acknowledgement

end Observer

/-- The table is what the notifications so far make of it. -/
structure Table (s : Observable) (ledger : List Notice) : Prop where
  size : s.observers.length ≤ maxObservers
  distinct : (s.observers.map (·.peer)).Nodup
  conditions : ∀ o ∈ s.observers, o.conditions.length ≤ maxConditions ∧
    ∀ c ∈ o.conditions, c.kind ≠ .cancellation
  asked : ∀ o ∈ s.observers, ∃ x request, Notice.latestAnswer? ledger o.peer = some x ∧
    x.request = some request ∧ o.Asked request
  told : ∀ o ∈ s.observers, ∃ x, Notice.latest? ledger o.peer = some x ∧ o.Told s.renderer x

namespace Table

variable {s s' : Observable} {ledger : List Notice}

theorem of_sublist (h : Table s ledger) (fewer : s'.observers.Sublist s.observers)
    (renderer : s'.renderer = s.renderer) : Table s' ledger where
  size := fewer.length_le.trans h.size
  distinct := h.distinct.sublist (fewer.map _)
  conditions := fun o member => h.conditions o (fewer.mem member)
  asked := fun o member => h.asked o (fewer.mem member)
  told := fun o member => by
    rw [renderer]
    exact h.told o (fewer.mem member)

theorem of_same (h : Table s ledger) (observers : s'.observers = s.observers)
    (renderer : s'.renderer = s.renderer) : Table s' ledger :=
  h.of_sublist (observers ▸ List.Sublist.refl _) renderer

theorem eq_of_peer (h : Table s ledger) {o x : Observer} (member : o ∈ s.observers)
    (member' : x ∈ s.observers) (same : o.peer = x.peer) : o = x :=
  List.inj_on_of_nodup_map h.distinct member member' same

end Table

/-! ## Registering -/

namespace Observable

variable {s : Observable} {now : Nat}

theorem parseConditions_length {taken conditions : List Condition} {raw : List (List UInt8)}
    (fits : taken.length ≤ maxConditions) (parsed : parseConditions taken raw = .ok conditions) :
    conditions.length ≤ maxConditions := by
  induction raw generalizing taken with
  | nil =>
    cases parsed
    exact fits
  | cons first rest ih =>
    unfold parseConditions at parsed
    split at parsed
    · cases parsed
    split at parsed
    · cases parsed
    · next more =>
      refine ih ?_ parsed
      rw [List.length_append, List.length_singleton]
      exact Nat.lt_of_not_le more

theorem registration?_eq_some {m : Received} {conditions : List Condition}
    (registers : s.registration? m = some conditions) :
    m.packet.code = Code.get ∧ m.packet.observe.toBool = true ∧ s.hasRoom m.peer = true ∧
      parseConditions [] m.packet.conditions = .ok conditions ∧
      ∀ c ∈ conditions, c.kind ≠ .cancellation := by
  unfold registration? at registers
  split at registers
  · next wanted =>
    simp only [Bool.and_eq_true, beq_iff_eq] at wanted
    obtain ⟨parsed, kept⟩ := Option.filter_eq_some_iff.mp registers
    refine ⟨wanted.1.1.2, wanted.1.2, wanted.2, ?_, by simpa using kept⟩
    cases outcome : parseConditions [] m.packet.conditions with
    | error cause => rw [outcome] at parsed; cases parsed
    | ok found => rw [outcome] at parsed; cases parsed; rfl
  · cases registers

theorem scheduleRefresh_frame (s : Observable) (r : Radio) :
    (s.scheduleRefresh r).1.observers = s.observers ∧
      (s.scheduleRefresh r).1.renderer = s.renderer ∧
      (s.scheduleRefresh r).1.status = s.status ∧
      (s.scheduleRefresh r).2.transmissions = r.transmissions := by
  unfold scheduleRefresh
  split <;> exact ⟨rfl, rfl, rfl, rfl⟩

theorem putObserver_cases (s : Observable) (r : Radio) (o : Observer) :
    (∃ i, ∃ _ : i < s.observers.length, s.observers[i].peer = o.peer ∧
        (s.putObserver r o).1 = { s with observers := s.observers.set i o }) ∨
      (s.isObserving o.peer = false ∧
        (s.putObserver r o).1 = { s with observers := s.observers ++ [o] }) := by
  unfold putObserver
  split
  · next i found =>
    obtain ⟨inside, same, -⟩ := List.findIdx?_eq_some_iff_getElem.mp found
    exact .inl ⟨i, inside, by simpa using same, rfl⟩
  · next absent =>
    refine .inr ⟨?_, rfl⟩
    simpa [isObserving, List.findIdx?_eq_none_iff] using absent

theorem putObserver_peers (s : Observable) (r : Radio) (o : Observer) :
    (s.putObserver r o).1.observers.map (·.peer) =
      s.observers.map (·.peer) ++ if s.isObserving o.peer then [] else [o.peer] := by
  rcases s.putObserver_cases r o with ⟨i, inside, same, put⟩ | ⟨absent, put⟩
  · have observing : s.isObserving o.peer = true :=
      List.any_eq_true.mpr ⟨s.observers[i], List.getElem_mem inside, by simpa using same⟩
    have here : (s.observers.map (·.peer))[i]? = some o.peer := by simp [inside, same]
    obtain ⟨_, here⟩ := List.getElem?_eq_some_iff.mp here
    rw [put, if_pos observing, List.append_nil, List.map_set, ← here, List.set_getElem_self]
  · rw [put, absent]
    simp

theorem putObserver_spec {o : Observer} (r : Radio) (size : s.observers.length ≤ maxObservers)
    (distinct : (s.observers.map (·.peer)).Nodup) (room : s.hasRoom o.peer = true) :
    (s.putObserver r o).1.observers.length ≤ maxObservers ∧
      ((s.putObserver r o).1.observers.map (·.peer)).Nodup ∧
      ∀ x ∈ (s.putObserver r o).1.observers, x = o ∨ x ∈ s.observers ∧ x.peer ≠ o.peer := by
  have peers := s.putObserver_peers r o
  rcases s.putObserver_cases r o with ⟨i, inside, same, put⟩ | ⟨absent, put⟩
  · rw [put] at peers ⊢
    have observing : s.isObserving o.peer = true :=
      List.any_eq_true.mpr ⟨s.observers[i], List.getElem_mem inside, by simpa using same⟩
    rw [if_pos observing, List.append_nil] at peers
    have distinct' : ((s.observers.set i o).map (·.peer)).Nodup := peers ▸ distinct
    refine ⟨by simpa using size, distinct', fun x member => ?_⟩
    have mine : o ∈ s.observers.set i o := List.mem_set inside o
    by_cases peer : x.peer = o.peer
    · exact .inl (List.inj_on_of_nodup_map distinct' member mine peer)
    · refine .inr ⟨(List.mem_or_eq_of_mem_set member).resolve_right fun equal => ?_, peer⟩
      exact peer (congrArg Observer.peer equal)
  · rw [put, absent] at peers
    have others : ∀ x ∈ s.observers, x.peer ≠ o.peer := by simpa [isObserving] using absent
    have free : s.observers.length < maxObservers := by simpa [hasRoom, absent] using room
    rw [put, peers]
    refine ⟨by simpa using free, ?_, fun x member => ?_⟩
    · refine List.nodup_append.mpr ⟨distinct, List.nodup_singleton _, fun a old b new => ?_⟩
      obtain ⟨x, member, rfl⟩ := List.mem_map.mp old
      rw [List.mem_singleton.mp new]
      exact others x member
    · rcases List.mem_append.mp member with old | new
      · exact .inr ⟨old, others x old⟩
      · exact .inl (List.mem_singleton.mp new)

theorem enter_frame (s : Observable) (r : Radio) (o : Observer) :
    (s.enter r o).1.observers = (s.putObserver r o).1.observers ∧
      (s.enter r o).1.renderer = s.renderer ∧ (s.enter r o).2.transmissions = r.transmissions := by
  have put : (s.putObserver r o).1.renderer = s.renderer ∧
      (s.putObserver r o).2.transmissions = r.transmissions := by
    unfold putObserver
    split <;> exact ⟨rfl, rfl⟩
  unfold enter
  simp only
  split
  · obtain ⟨observers, renderer, -, transmissions⟩ :=
      (s.putObserver r o).1.scheduleRefresh_frame (s.putObserver r o).2
    exact ⟨observers, renderer.trans put.1, transmissions.trans put.2⟩
  · exact ⟨rfl, put⟩

end Observable

/-- An entry is written for the notification that answered. -/
theorem Table.enter {s : Observable} {ledger : List Notice} {n : Node} {m : Received} {now : Nat}
    {r : Radio} {t : Transmission} {conditions : List Condition} (h : Table s ledger)
    (registers : s.registration? m = some conditions) (answers : s.Answers n m now r t) :
    Table (s.enter r (s.entry m now conditions)).1
      (ledger ++ [⟨t.peer, t.packet, s.status, now, some m.packet⟩]) := by
  obtain ⟨get, observe, room, parsed, kept⟩ := Observable.registration?_eq_some registers
  obtain ⟨observers, renderer, -⟩ := s.enter_frame r (s.entry m now conditions)
  obtain ⟨size, distinct, entries⟩ := Observable.putObserver_spec (o := s.entry m now conditions) r
    h.size h.distinct room
  rw [← observers] at size distinct entries
  have mine : t.peer = (s.entry m now conditions).peer := answers.goes
  refine ⟨size, distinct, fun x member => ?_, fun x member => ?_, fun x member => ?_⟩
  · rcases entries x member with rfl | ⟨old, -⟩
    · exact ⟨Observable.parseConditions_length (Nat.zero_le _) parsed, kept⟩
    · exact h.conditions x old
  · rw [Notice.latestAnswer?_append, Notice.latestAnswer?_singleton rfl]
    rcases entries x member with rfl | ⟨old, other⟩
    · rw [if_pos mine]
      exact ⟨_, m.packet, rfl, rfl, get, observe, rfl, parsed⟩
    · have away : t.peer ≠ x.peer := fun same => other (same.symm.trans mine)
      rw [if_neg away, Option.none_or]
      exact h.asked x old
  · rw [Notice.latest?_append, Notice.latest?_singleton, renderer]
    rcases entries x member with rfl | ⟨old, other⟩
    · rw [if_pos mine]
      refine ⟨_, rfl, rfl, rfl, answers.notifies.token, answers.notifies.payload, ?_⟩
      by_cases rides : t.packet.kind = .acknowledgement
      · exact .inl (answers.rides rides)
      · exact .inr ⟨rfl, rides⟩
    · have away : t.peer ≠ x.peer := fun same => other (same.symm.trans mine)
      rw [if_neg away, Option.none_or]
      exact h.told x old

/-! ## Publishing -/

namespace Observable

variable {s : Observable} {now : Nat}

theorem Tells.absent {observers observers' : List Observer} {taken : List Transmission}
    (h : s.Tells now observers taken observers') {peer : NodeId}
    (fresh : peer ∉ observers.map (·.peer)) : taken.filter (·.peer == peer) = [] := by
  refine List.filter_eq_nil_iff.mpr fun t member same => fresh ?_
  rw [← beq_iff_eq.mp same]
  exact h.peers.2.mem (List.mem_map_of_mem member)

/-- After notifications an entry is as it was and its peer was told nothing, or it is noted for
the one notification that its peer got. -/
theorem Tells.cases {observers observers' : List Observer} {taken : List Transmission}
    (h : s.Tells now observers taken observers') (distinct : (observers.map (·.peer)).Nodup)
    {x : Observer} (member : x ∈ observers') :
    (x ∈ observers ∧ taken.filter (·.peer == x.peer) = []) ∨
      ∃ o ∈ observers, ∃ t, x = s.told now o t.packet.id ∧ s.Notifies o.token t.packet ∧
        taken.filter (·.peer == o.peer) = [t] := by
  induction h with
  | nil => cases member
  | kept o later ih =>
    rw [List.map_cons, List.nodup_cons] at distinct
    rcases List.mem_cons.mp member with rfl | member
    · exact .inl ⟨List.mem_cons_self .., later.absent distinct.1⟩
    · rcases ih distinct.2 member with ⟨old, none⟩ | ⟨o', old, found⟩
      · exact .inl ⟨List.mem_cons_of_mem _ old, none⟩
      · exact .inr ⟨o', List.mem_cons_of_mem _ old, found⟩
  | @told o t goes notifies rest rest' taken later ih =>
    rw [List.map_cons, List.nodup_cons] at distinct
    -- a later entry has another peer, so this notification is none of its own
    have others : ∀ y ∈ rest, ¬ (t.peer == y.peer) = true := by
      intro y old same
      rw [beq_iff_eq, goes] at same
      exact distinct.1 (same ▸ List.mem_map_of_mem old)
    rcases List.mem_cons.mp member with rfl | member
    · refine .inr ⟨o, List.mem_cons_self .., t, rfl, notifies, ?_⟩
      rw [List.filter_cons_of_pos (by simpa using goes), later.absent distinct.1]
    · rcases ih distinct.2 member with ⟨old, none⟩ | ⟨y, old, u, same, notified, one⟩
      · refine .inl ⟨List.mem_cons_of_mem _ old, ?_⟩
        rw [List.filter_cons_of_neg (by simpa using others x old), none]
      · refine .inr ⟨y, List.mem_cons_of_mem _ old, u, same, notified, ?_⟩
        rw [List.filter_cons_of_neg (by simpa using others y old), one]

theorem Tells.asked {observers observers' : List Observer} {taken : List Transmission}
    (h : s.Tells now observers taken observers') (distinct : (observers.map (·.peer)).Nodup)
    {x : Observer} (member : x ∈ observers') : ∃ o ∈ observers, x.peer = o.peer ∧
      x.token = o.token ∧ x.conditions = o.conditions := by
  rcases h.cases distinct member with ⟨old, -⟩ | ⟨o, old, t, rfl, -⟩
  · exact ⟨x, old, rfl, rfl, rfl⟩
  · exact ⟨o, old, rfl, rfl, rfl⟩

theorem notifyObservers_cases (s : Observable) (r : Radio) (unconditionally : Bool) :
    (∃ e, r.now = .error e ∧ s.notifyObservers r unconditionally = (s, r, .error e)) ∨
      ∃ now taken r' observers result, r.now = .ok now ∧ r.Takes r' taken ∧
        s.Tells now s.observers taken observers ∧
        s.notifyObservers r unconditionally = ({ s with observers }, r', result) := by
  unfold notifyObservers
  split
  · next e broken => exact .inl ⟨e, broken, rfl⟩
  · next now clock =>
    obtain ⟨taken, takes, tells⟩ := s.notifyEach_tells now unconditionally r s.observers
    exact .inr ⟨now, taken, _, _, _, clock, takes, tells, rfl⟩

end Observable

theorem Table.tells {s : Observable} {ledger : List Notice} {now : Nat}
    {observers : List Observer} {taken : List Transmission} (h : Table s ledger)
    (tells : s.Tells now s.observers taken observers) :
    Table { s with observers }
      (ledger ++ taken.map fun t => ⟨t.peer, t.packet, s.status, now, none⟩) := by
  have peers := tells.peers.1
  refine ⟨?_, by rw [peers]; exact h.distinct, fun x member => ?_, fun x member => ?_,
    fun x member => ?_⟩
  · have := congrArg List.length peers
    rw [List.length_map, List.length_map] at this
    exact this ▸ h.size
  · obtain ⟨o, old, -, -, conditions⟩ := tells.asked h.distinct member
    rw [conditions]
    exact h.conditions o old
  · obtain ⟨o, old, peer, token, conditions⟩ := tells.asked h.distinct member
    obtain ⟨notice, request, found, answers, asks⟩ := h.asked o old
    rw [Notice.latestAnswer?_append, Notice.latestAnswer?_map, Option.none_or, peer]
    exact ⟨notice, request, found, answers, asks.get, asks.observe, asks.token.trans token.symm,
      by rw [conditions]; exact asks.conditions⟩
  · rw [Notice.latest?_append, Notice.latest?_map]
    rcases tells.cases h.distinct member with ⟨old, none⟩ | ⟨o, old, t, rfl, notifies, one⟩
    · rw [none]
      exact h.told x old
    · change ∃ y, ((taken.filter (·.peer == o.peer)).getLast?.map _).or _ = some y ∧ _
      rw [one]
      exact ⟨_, rfl, rfl, rfl, notifies.token, notifies.payload, .inl rfl⟩

end CoapNode
