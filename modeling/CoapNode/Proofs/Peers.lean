import CoapNode.PeerTable
import Mathlib
/-! Ids of peers. Addresses survive being converted on their way into a table and out again,
whatever the form that the table keeps them in, as long as that form can be read as it was made. The
addresses in a table are in order and without a gap; hence whatever is asked for, an address has one
id, an id one address, and a full table changes no more. -/
namespace CoapNode

/-! ## Conversions -/

namespace AddressForm

variable {form : AddressForm}

/-- Hosts and sockets are read as they were made, and sockets are the same if the same is read of
them. -/
structure Lawful (form : AddressForm) : Prop where
  octets : ∀ a b c d, form.octets (form.host4 a b c d) = #v[a, b, c, d]
  segments : ∀ a b c d e f g h,
    form.segments (form.host6 a b c d e f g h) = #v[a, b, c, d, e, f, g, h]
  socket : ∀ host port, ∃ s, form.socket (.v4 host) port = .v4 s ∧
    form.hostOf4 s = host ∧ form.portOf4 s = port
  socket6 : ∀ host port flowInfo scopeId,
    let s := form.socket6 host port flowInfo scopeId
    form.hostOf6 s = host ∧ form.portOf6 s = port ∧ form.flowInfoOf s = flowInfo ∧
      form.scopeIdOf s = scopeId
  same4 : ∀ s t, form.same4 s t = true ↔
    form.octets (form.hostOf4 s) = form.octets (form.hostOf4 t) ∧ form.portOf4 s = form.portOf4 t
  same6 : ∀ s t, form.same6 s t = true ↔
    form.segments (form.hostOf6 s) = form.segments (form.hostOf6 t) ∧
      form.portOf6 s = form.portOf6 t ∧ form.flowInfoOf s = form.flowInfoOf t ∧
      form.scopeIdOf s = form.scopeIdOf t

theorem plain_lawful : plain.Lawful where
  octets := fun _ _ _ _ => rfl
  segments := fun _ _ _ _ _ _ _ _ => rfl
  socket := fun host port => ⟨(host, port), rfl, rfl, rfl⟩
  socket6 := fun _ _ _ _ => ⟨rfl, rfl, rfl, rfl⟩
  same4 := by
    rintro ⟨host, port⟩ ⟨host', port'⟩
    simp [plain]
  same6 := by
    rintro ⟨host, port, flowInfo, scopeId⟩ ⟨host', port', flowInfo', scopeId'⟩
    simp [plain]

theorem Lawful.restoreHost_keepHost (lawful : form.Lawful) (host : HostAddress) :
    form.restoreHost (form.keepHost host) = host := by
  cases host with
  | v4 ip =>
    have whole : #v[ip[0], ip[1], ip[2], ip[3]] = ip := by ext i inside; interval_cases i <;> rfl
    simp only [keepHost, restoreHost, lawful.octets]
    exact congrArg Family.v4 whole
  | v6 ip =>
    have whole : #v[ip[0], ip[1], ip[2], ip[3], ip[4], ip[5], ip[6], ip[7]] = ip := by
      ext i inside
      interval_cases i <;> rfl
    simp only [keepHost, restoreHost, lawful.segments]
    exact congrArg Family.v6 whole

theorem Lawful.restore_keep (lawful : form.Lawful) (a : PeerAddress) :
    form.restore (form.keep a) = a := by
  cases a with
  | v4 octets port =>
    have host := lawful.restoreHost_keepHost (.v4 octets)
    unfold keepHost at host
    obtain ⟨s, made, same, sound⟩ := lawful.socket (form.host4 octets[0] octets[1] octets[2]
      octets[3]) port
    simp only [keep, keepHost, made, restore, same, sound, host]
    rfl
  | v6 segments port flowInfo scopeId =>
    have host := lawful.restoreHost_keepHost (.v6 segments)
    unfold keepHost at host
    obtain ⟨same, sound, flow, scope⟩ := lawful.socket6 (form.host6 segments[0] segments[1]
      segments[2] segments[3] segments[4] segments[5] segments[6] segments[7]) port flowInfo scopeId
    simp only [keep, keepHost, restore, same, sound, flow, scope, host]

theorem Lawful.beq_self (lawful : form.Lawful) (x : form.Socket) : (x == x) = true := by
  cases x with
  | v4 s => exact (lawful.same4 s s).mpr ⟨rfl, rfl⟩
  | v6 s => exact (lawful.same6 s s).mpr ⟨rfl, rfl, rfl, rfl⟩

/-- Converting reads no more of a socket than comparing does. -/
theorem Lawful.restore_of_beq (lawful : form.Lawful) {x y : form.Socket} (same : (x == y) = true) :
    form.restore x = form.restore y := by
  cases x with
  | v4 s =>
    cases y with
    | v4 t =>
      obtain ⟨octets, port⟩ := (lawful.same4 s t).mp same
      simp only [restore, restoreHost, octets, port]
    | v6 t => cases same
  | v6 s =>
    cases y with
    | v4 t => cases same
    | v6 t =>
      obtain ⟨segments, port, flow, scope⟩ := (lawful.same6 s t).mp same
      simp only [restore, restoreHost, segments, port, flow, scope]

end AddressForm

/-- Addresses come out as they went in, and are told apart by how they are kept. -/
structure Keeping.Faithful {α β : Type} [BEq β] (k : Keeping α β) : Prop where
  restore_keep : ∀ a, k.restore (k.keep a) = a
  beq_keep : ∀ a b, (k.keep a == k.keep b) = true ↔ a = b

theorem AddressForm.Lawful.faithful {form : AddressForm} (lawful : form.Lawful) :
    form.keeping.Faithful where
  restore_keep := lawful.restore_keep
  beq_keep := by
    intro a b
    constructor
    · intro same
      rw [← lawful.restore_keep a, ← lawful.restore_keep b]
      exact lawful.restore_of_beq same
    · rintro rfl
      exact lawful.beq_self _

namespace PeerTable

variable {α β : Type} {k : Keeping α β} {capacity : Nat} {t : PeerTable β} {known : List α}
  {a b : α} {i id : Nat}

/-! ## One call -/

theorem id?_of_lt (inside : i < maxId) : id? i = some (i + 1) := if_pos inside

/-- The table holds these addresses in the order of their ids, and free slots after them. -/
structure Lists (k : Keeping α β) (capacity : Nat) (t : PeerTable β) (known : List α) : Prop where
  slots : t.slots =
    known.map (fun a => some (k.keep a)) ++ List.replicate (capacity - known.length) none
  distinct : known.Nodup
  fits : known.length ≤ capacity

theorem empty_lists (k : Keeping α β) (capacity : Nat) : Lists k capacity (empty capacity) [] :=
  ⟨rfl, List.nodup_nil, Nat.zero_le _⟩

namespace Lists

variable (h : Lists k capacity t known)
include h

theorem slot_of_getElem? (found : known[i]? = some a) : t.slots[i]? = some (some (k.keep a)) := by
  obtain ⟨inside, -⟩ := List.getElem?_eq_some_iff.mp found
  rw [h.slots, List.getElem?_append_left (by simpa using inside), List.getElem?_map, found]
  rfl

theorem slot_of_length_le (outside : known.length ≤ i) : t.slots[i]?.join = none := by
  rw [h.slots, List.getElem?_append_right (by simpa using outside), List.getElem?_replicate]
  split <;> rfl

theorem addressOf?_succ (restores : ∀ a, k.restore (k.keep a) = a) (i : Nat) :
    t.addressOf? k (i + 1) = known[i]? := by
  change (t.slots[i]?.join).map k.restore = known[i]?
  cases found : known[i]? with
  | none => rw [h.slot_of_length_le (List.getElem?_eq_none_iff.mp found), Option.map_none]
  | some a =>
    rw [h.slot_of_getElem? found]
    exact congrArg some (restores a)

theorem addressOf?_eq_some (restores : ∀ a, k.restore (k.keep a) = a) :
    t.addressOf? k id = some a ↔ 0 < id ∧ known[id - 1]? = some a := by
  cases id with
  | zero => simp [addressOf?, address?]
  | succ i => simp [h.addressOf?_succ restores]

theorem findIdx?_free : t.slots.findIdx? (·.isNone) =
    if known.length < capacity then some known.length else none := by
  have taken : known.findIdx? (Option.isNone ∘ fun a => some (k.keep a)) = none := by
    rw [List.findIdx?_eq_none_iff]
    exact fun _ _ => rfl
  rw [h.slots, List.findIdx?_append, List.findIdx?_map, taken, List.findIdx?_replicate]
  by_cases room : known.length < capacity <;> simp [room]

theorem set_free (unknown : a ∉ known) (room : known.length < capacity) :
    Lists k capacity ⟨t.slots.set known.length (some (k.keep a))⟩ (known ++ [a]) where
  slots := by
    obtain ⟨left, more⟩ : ∃ left, capacity - known.length = left + 1 :=
      Nat.exists_eq_add_one.mpr (Nat.sub_pos_of_lt room)
    have fewer : capacity - (known ++ [a]).length = left := by
      rw [List.length_append, List.length_singleton]
      omega
    change t.slots.set _ _ = _
    rw [h.slots, more, fewer, List.replicate_succ, List.set_append_right _ _ (by simp)]
    simp
  distinct := by
    rw [List.nodup_append]
    refine ⟨h.distinct, List.nodup_singleton a, fun x old y new same => unknown ?_⟩
    rwa [← List.mem_singleton.mp new, ← same]
  fits := by
    rw [List.length_append, List.length_singleton]
    exact room

variable [BEq β] (faithful : k.Faithful)
include faithful

theorem peerOf_known (found : known[i]? = some a) : t.peerOf k a = (t, id? i) := by
  obtain ⟨inside, listed⟩ := List.getElem?_eq_some_iff.mp found
  have first : t.slots.findIdx? (· == some (k.keep a)) = some i := by
    have position :
        known.findIdx? ((· == some (k.keep a)) ∘ fun b => some (k.keep b)) = some i := by
      refine List.findIdx?_eq_some_iff_getElem.mpr ⟨inside, ?_, fun j before => ?_⟩
      · exact (faithful.beq_keep _ _).mpr listed
      · intro same
        have equal := (faithful.beq_keep _ _).mp same
        exact Nat.ne_of_lt before (h.distinct.getElem_inj_iff.mp (equal.trans listed.symm))
    rw [h.slots, List.findIdx?_append, List.findIdx?_map, position, Option.some_or]
  simp only [peerOf, peer, first]

theorem findIdx?_unknown (unknown : a ∉ known) :
    t.slots.findIdx? (· == some (k.keep a)) = none := by
  rw [List.findIdx?_eq_none_iff, h.slots]
  intro slot member
  rcases List.mem_append.mp member with taken | free
  · obtain ⟨b, listed, rfl⟩ := List.mem_map.mp taken
    refine Bool.eq_false_iff.mpr fun same => unknown ?_
    rwa [← (faithful.beq_keep b a).mp same]
  · rw [List.eq_of_mem_replicate free]
    rfl

theorem peerOf_unknown (unknown : a ∉ known) (room : known.length < capacity) :
    t.peerOf k a = (⟨t.slots.set known.length (some (k.keep a))⟩, id? known.length) := by
  have free := h.findIdx?_free
  rw [if_pos room] at free
  simp only [peerOf, peer, h.findIdx?_unknown faithful unknown, free]

theorem peerOf_full (unknown : a ∉ known) (full : known.length = capacity) :
    t.peerOf k a = (t, none) := by
  have free := h.findIdx?_free
  rw [if_neg (Nat.not_lt_of_le full.ge)] at free
  simp only [peerOf, peer, h.findIdx?_unknown faithful unknown, free]

end Lists

/-- After a call the address has its place, which the answer tells; only the address itself may be
new. -/
structure Places [BEq β] (k : Keeping α β) (capacity : Nat) (t : PeerTable β) (known : List α)
    (a : α) (more : List α) (i : Nat) : Prop where
  lists : Lists k capacity (t.peerOf k a).1 (known ++ more)
  own : ∀ b ∈ more, b = a
  place : (known ++ more)[i]? = some a
  next : i ≤ known.length
  answer : (t.peerOf k a).2 = id? i

/-! ## Calls in a row -/

section

variable [BEq β]

def after (k : Keeping α β) (t : PeerTable β) (calls : List α) : PeerTable β :=
  calls.foldl (fun t a => (t.peerOf k a).1) t

def Gives (k : Keeping α β) (t : PeerTable β) (calls : List α) (a : α) (id : NodeId) : Prop :=
  ∃ earlier later, calls = earlier ++ a :: later ∧
    ((t.after k earlier).peerOf k a).2 = some id

theorem after_append (calls more : List α) :
    t.after k (calls ++ more) = (t.after k calls).after k more := List.foldl_append

theorem Gives.append {calls : List α} (gives : t.Gives k calls a id) (more : List α) :
    t.Gives k (calls ++ more) a id := by
  obtain ⟨earlier, later, rfl, answered⟩ := gives
  exact ⟨earlier, later ++ more, by simp, answered⟩

namespace Lists

variable (h : Lists k capacity t known) (faithful : k.Faithful)
include h faithful

/-- The address has its place after a call, or else the table is full and stays as it is. -/
theorem peerOf_cases (a : α) : (∃ more i, Places k capacity t known a more i) ∨
    a ∉ known ∧ known.length = capacity ∧ t.peerOf k a = (t, none) := by
  by_cases listed : a ∈ known
  · obtain ⟨i, found⟩ := List.mem_iff_getElem?.mp listed
    have answer := h.peerOf_known faithful found
    obtain ⟨inside, -⟩ := List.getElem?_eq_some_iff.mp found
    refine .inl ⟨[], i, ?_, by simp, by simpa using found, inside.le, by rw [answer]⟩
    rw [answer, List.append_nil]
    exact h
  rcases Nat.lt_or_eq_of_le h.fits with room | full
  · have answer := h.peerOf_unknown faithful listed room
    refine .inl ⟨[a], known.length, ?_, by simp, by simp, Nat.le_refl _, by rw [answer]⟩
    rw [answer]
    exact h.set_free listed room
  · exact .inr ⟨listed, full, h.peerOf_full faithful listed full⟩

theorem after (calls : List α) :
    ∃ more, Lists k capacity (t.after k calls) (known ++ more) := by
  induction calls generalizing t known with
  | nil => exact ⟨[], by rw [List.append_nil]; exact h⟩
  | cons a rest ih =>
    rcases h.peerOf_cases faithful a with ⟨new, _, placed⟩ | ⟨-, -, same⟩
    · obtain ⟨more, lists⟩ := ih placed.lists
      exact ⟨new ++ more, by rw [← List.append_assoc]; exact lists⟩
    · obtain ⟨more, lists⟩ := ih h
      refine ⟨more, ?_⟩
      change Lists k capacity (PeerTable.after k (t.peerOf k a).1 rest) _
      rw [same]
      exact lists

theorem peerOf_after (found : known[i]? = some a) (later : List α) :
    ((t.after k later).peerOf k a).2 = id? i := by
  obtain ⟨more, lists⟩ := h.after faithful later
  obtain ⟨inside, -⟩ := List.getElem?_eq_some_iff.mp found
  rw [lists.peerOf_known faithful (by rw [List.getElem?_append_left inside, found])]

theorem peerOf_stable (a : α) (later : List α) :
    (((t.peerOf k a).1.after k later).peerOf k a).2 = (t.peerOf k a).2 := by
  rcases h.peerOf_cases faithful a with ⟨_, _, placed⟩ | ⟨unknown, full, same⟩
  · rw [placed.lists.peerOf_after faithful placed.place, placed.answer]
  · rw [same]
    obtain ⟨more, lists⟩ := h.after faithful later
    -- nothing was added since, for want of room
    have none : more = [] := by
      have fits := lists.fits
      rw [List.length_append, full] at fits
      exact List.length_eq_zero_iff.mp (by omega)
    rw [none, List.append_nil] at lists
    rw [lists.peerOf_full faithful unknown full]

theorem unknown_of_nowhere (nowhere : ∀ id, t.addressOf? k id ≠ some a) : a ∉ known := by
  intro member
  obtain ⟨i, found⟩ := List.mem_iff_getElem?.mp member
  exact nowhere (i + 1) ((h.addressOf?_succ faithful.restore_keep i).trans found)

theorem filled_iff : (∀ id : Nat, 0 < id → id ≤ capacity → (t.addressOf? k id).isSome = true) ↔
    known.length = capacity := by
  have listed := fun i => h.addressOf?_succ faithful.restore_keep i
  constructor
  · intro taken
    refine Nat.le_antisymm h.fits ?_
    by_contra room
    have last := taken (known.length + 1) (Nat.succ_pos _) (by omega)
    rw [listed, List.getElem?_eq_none_iff.mpr (Nat.le_refl _)] at last
    cases last
  · intro full id given inside
    obtain ⟨i, rfl⟩ := Nat.exists_eq_add_one.mpr given
    rw [listed, List.getElem?_eq_getElem (by omega)]
    rfl

theorem addressOf?_after (stands : t.addressOf? k id = some a) (later : List α) :
    (t.after k later).addressOf? k id = some a := by
  obtain ⟨more, lists⟩ := h.after faithful later
  rw [lists.addressOf?_eq_some faithful.restore_keep]
  obtain ⟨given, found⟩ := (h.addressOf?_eq_some faithful.restore_keep).mp stands
  obtain ⟨inside, -⟩ := List.getElem?_eq_some_iff.mp found
  exact ⟨given, by rw [List.getElem?_append_left inside, found]⟩

variable (small : capacity ≤ maxId)
include small

theorem peerOf_eq_some :
    (t.peerOf k a).2 = some id ↔ (t.peerOf k a).1.addressOf? k id = some a := by
  rcases h.peerOf_cases faithful a with ⟨more, i, placed⟩ | ⟨unknown, -, same⟩
  · obtain ⟨inside, -⟩ := List.getElem?_eq_some_iff.mp placed.place
    have fits := placed.lists.fits
    rw [placed.answer, id?_of_lt (by omega),
      placed.lists.addressOf?_eq_some faithful.restore_keep, Option.some.injEq]
    constructor
    · rintro rfl
      exact ⟨Nat.succ_pos i, placed.place⟩
    · rintro ⟨given, found⟩
      have same : i = id - 1 :=
        (List.getElem?_inj inside placed.lists.distinct).mp (placed.place.trans found.symm)
      omega
  · rw [same, h.addressOf?_eq_some faithful.restore_keep]
    constructor
    · rintro ⟨⟩
    · rintro ⟨-, found⟩
      exact absurd (List.mem_of_getElem? found) unknown

/-- An id is given only if all smaller ones stand for something already. -/
theorem peerOf_bounds (answered : (t.peerOf k a).2 = some id) : 0 < id ∧ id ≤ capacity ∧
    ∀ j : Nat, 0 < j → j < id → ∃ b, t.addressOf? k j = some b := by
  rcases h.peerOf_cases faithful a with ⟨more, i, placed⟩ | ⟨-, -, same⟩
  · obtain ⟨inside, -⟩ := List.getElem?_eq_some_iff.mp placed.place
    have fits := placed.lists.fits
    have next := placed.next
    rw [placed.answer, id?_of_lt (by omega), Option.some.injEq] at answered
    refine ⟨by omega, by omega, fun j given before => ?_⟩
    have found : known[j - 1]? = some known[j - 1] := List.getElem?_eq_getElem (by omega)
    exact ⟨_, (h.addressOf?_eq_some faithful.restore_keep).mpr ⟨given, found⟩⟩
  · rw [same] at answered
    cases answered

theorem addressOf?_peerOf (stands : (t.peerOf k b).1.addressOf? k id = some a) :
    t.addressOf? k id = some a ∨ a = b ∧ (t.peerOf k b).2 = some id := by
  rcases h.peerOf_cases faithful b with ⟨more, i, placed⟩ | ⟨-, -, same⟩
  · obtain ⟨given, found⟩ :=
      (placed.lists.addressOf?_eq_some faithful.restore_keep).mp stands
    rcases Nat.lt_or_ge (id - 1) known.length with old | new
    · rw [List.getElem?_append_left old] at found
      exact .inl ((h.addressOf?_eq_some faithful.restore_keep).mpr ⟨given, found⟩)
    · rw [List.getElem?_append_right new] at found
      cases placed.own a (List.mem_of_getElem? found)
      exact .inr ⟨rfl, (h.peerOf_eq_some faithful small).mpr stands⟩
  · rw [same] at stands
    exact .inl stands

end Lists

theorem addressOf?_iff_gives (faithful : k.Faithful) (small : capacity ≤ maxId) (calls : List α) :
    ((empty capacity).after k calls).addressOf? k id = some a ↔
      (empty capacity).Gives k calls a id := by
  have start := empty_lists k capacity
  constructor
  · intro stands
    induction calls using List.reverseRecOn with
    | nil =>
      obtain ⟨-, found⟩ := (start.addressOf?_eq_some faithful.restore_keep).mp stands
      cases found
    | append_singleton calls b ih =>
      obtain ⟨known, lists⟩ := start.after faithful calls
      rw [after_append] at stands
      rcases lists.addressOf?_peerOf faithful small stands with before | ⟨rfl, answered⟩
      · exact (ih before).append [b]
      · exact ⟨calls, [], rfl, answered⟩
  · rintro ⟨earlier, later, rfl, answered⟩
    obtain ⟨known, lists⟩ := start.after faithful earlier
    have stands := (lists.peerOf_eq_some faithful small).mp answered
    rw [after_append]
    rcases lists.peerOf_cases faithful a with ⟨more, i, placed⟩ | ⟨-, -, same⟩
    · exact placed.lists.addressOf?_after faithful stands later
    · rw [same] at answered
      cases answered

end

/-- Whatever form a table keeps addresses in and whatever it was asked for before: an address gets
the answer that it got first; no two addresses get one id; an id is given only after all that are
smaller, the first being one; and an id stands for the very address that it was given to, and
otherwise for none. As long as an id is free an unknown address gets one; when none is, it gets none
and the table stays the same. -/
theorem peers_keep_ids {form : AddressForm} (lawful : form.Lawful) {capacity : Nat}
    (small : capacity ≤ maxId) (calls : List PeerAddress) :
    let start : PeerTable form.Socket := .empty capacity
    let t := start.after form.keeping calls
    (∀ earlier a later, calls = earlier ++ a :: later →
      (t.peerOf form.keeping a).2 = ((start.after form.keeping earlier).peerOf form.keeping a).2) ∧
    (∀ a b id, start.Gives form.keeping calls a id → start.Gives form.keeping calls b id → a = b) ∧
    (∀ a (id : Nat), (t.peerOf form.keeping a).2 = some id → 0 < id ∧ id ≤ capacity ∧
      ∀ j : Nat, 0 < j → j < id → ∃ b, start.Gives form.keeping calls b j) ∧
    (∀ id a, t.addressOf? form.keeping id = some a ↔ start.Gives form.keeping calls a id) ∧
    ∀ a, (∀ id, t.addressOf? form.keeping id ≠ some a) →
      let full := ∀ id : Nat, 0 < id → id ≤ capacity → (t.addressOf? form.keeping id).isSome = true
      (full → t.peerOf form.keeping a = (t, none)) ∧
        (¬ full → ∃ id, (t.peerOf form.keeping a).2 = some id) := by
  intro start t
  have faithful := lawful.faithful
  have stands : ∀ id a, t.addressOf? form.keeping id = some a ↔
      start.Gives form.keeping calls a id := fun id a => addressOf?_iff_gives faithful small calls
  obtain ⟨known, lists⟩ := (empty_lists form.keeping capacity).after faithful calls
  rw [List.nil_append] at lists
  refine ⟨?_, ?_, ?_, stands, ?_⟩
  · rintro earlier a later rfl
    obtain ⟨before, lists⟩ := (empty_lists form.keeping capacity).after faithful earlier
    change (((start.after form.keeping (earlier ++ a :: later)).peerOf form.keeping a)).2 = _
    rw [after_append]
    exact lists.peerOf_stable faithful a later
  · intro a b id one other
    have same := ((stands id a).mpr one).symm.trans ((stands id b).mpr other)
    exact Option.some.inj same
  · intro a id answered
    obtain ⟨given, inside, before⟩ := lists.peerOf_bounds faithful small answered
    exact ⟨given, inside, fun j first less => (before j first less).imp fun b => (stands j b).mp⟩
  · intro a nowhere full
    have unknown := lists.unknown_of_nowhere faithful nowhere
    have filled : full ↔ known.length = capacity := lists.filled_iff faithful
    constructor
    · intro taken
      exact lists.peerOf_full faithful unknown (filled.mp taken)
    · intro free
      have room := Nat.lt_of_le_of_ne lists.fits (mt filled.mpr free)
      rw [lists.peerOf_unknown faithful unknown room]
      exact ⟨_, id?_of_lt (by omega)⟩

/-- Two addresses that differ in their scope fill a table, and a third finds no room. -/
theorem peers_keep_ids_scoped :
    let near : PeerAddress := .v6 #v[0xFE80, 0, 0, 0, 0, 0, 0, 1] 5683 0 1
    let far : PeerAddress := .v6 #v[0xFE80, 0, 0, 0, 0, 0, 0, 1] 5683 0 2
    let other : PeerAddress := .v4 #v[10, 0, 0, 1] 5683
    let calls := [near, far, near]
    let form := AddressForm.plain
    let start : PeerTable form.Socket := .empty 2
    let t := start.after form.keeping calls
    form.Lawful ∧ 2 ≤ maxId ∧
      (t.peerOf form.keeping near).2 = some 1 ∧ (t.peerOf form.keeping far).2 = some 2 ∧
      start.Gives form.keeping calls near 1 ∧ start.Gives form.keeping calls far 2 ∧
      t.addressOf? form.keeping 1 = some near ∧ t.addressOf? form.keeping 2 = some far ∧
      t.addressOf? form.keeping 0 = none ∧ t.peerOf form.keeping other = (t, none) := by
  intro near far other calls form start t
  have small : 2 ≤ maxId := by decide
  obtain ⟨stable, -, -, stands, rest⟩ := peers_keep_ids AddressForm.plain_lawful small calls
  have first : start.Gives form.keeping calls near 1 := ⟨[], [far, near], rfl, by decide⟩
  have second : start.Gives form.keeping calls far 2 := ⟨[near], [near], rfl, by decide⟩
  have one : t.addressOf? form.keeping 1 = some near := (stands 1 near).mpr first
  have two : t.addressOf? form.keeping 2 = some far := (stands 2 far).mpr second
  have nowhere : ∀ id, t.addressOf? form.keeping id ≠ some other := by
    intro id found
    obtain ⟨earlier, later, asked, -⟩ := (stands id other).mp found
    have among : other ∈ calls := by
      rw [asked]
      exact List.mem_append_right _ (List.mem_cons_self ..)
    exact absurd among (by decide)
  have full : ∀ id : Nat, 0 < id → id ≤ 2 → (t.addressOf? form.keeping id).isSome = true := by
    intro id given inside
    interval_cases id
    · rw [one]
      rfl
    · rw [two]
      rfl
  have again := stable [] near [far, near] rfl
  have same := stable [near] far [near] rfl
  exact ⟨AddressForm.plain_lawful, small, again.trans (by decide), same.trans (by decide), first,
    second, one, two, rfl, (rest other nowhere).1 full⟩

end PeerTable
end CoapNode
