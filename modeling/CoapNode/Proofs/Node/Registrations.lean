import CoapNode.Proofs.Observe.Visits
/-! What a registration's id tells. Ids are counted, and the count wraps around, so two current
registrations have one id just when a multiple of 65536 registrations was granted between them.
While ids are distinct nothing that is done under one of them concerns another registration. -/
namespace CoapNode

theorem RegistrationId.lt_next {i : RegistrationId} (up : i.val ≤ i.next.val) :
    i.val < i.next.val := by
  refine UInt16.lt_of_le_of_ne up fun same => ?_
  have := congrArg UInt16.toNat same
  simp [next] at this
  omega

/-! ## Distinct ids -/

namespace Radio

/-- A refused call leaves the table as it is; a granted one adds to its end, under the next id. -/
theorem register_cases (r : Radio) (path : String) :
    ((r.register path).1.resources = r.resources ∧
        (r.register path).1.nextRegistration = r.nextRegistration ∧
        ∃ e, (r.register path).2 = .error e) ∨
      (r.register path).1.resources = r.resources ++ [⟨r.nextRegistration, path⟩] ∧
        (r.register path).1.nextRegistration = r.nextRegistration.next ∧
        (r.register path).2 = .ok r.nextRegistration := by
  unfold register
  split
  · exact .inl ⟨rfl, rfl, _, rfl⟩
  · split
    · exact .inl ⟨rfl, rfl, _, rfl⟩
    · exact .inr ⟨rfl, rfl, rfl⟩

theorem attach_cases (r : Radio) (e : Endpoint) :
    (e.attach r).1 = e ∨
      (∀ id, e.registration = some id → r.isRegistered id = false) ∧
        (e.attach r).1 = { e with registration := some r.nextRegistration } ∧
        (e.attach r).2.1.nextRegistration = r.nextRegistration.next := by
  unfold Endpoint.attach
  split
  · exact .inl rfl
  next stale =>
  obtain ⟨-, -, _, refused⟩ | ⟨-, next, granted⟩ := r.register_cases e.path
  · split
    · next done => rw [done] at refused; cases refused
    · exact .inl rfl
  · split
    · next done =>
      rw [done] at next granted
      cases granted
      refine .inr ⟨fun id mine => ?_, rfl, next⟩
      rw [mine] at stale
      simpa using stale
    · next failed => rw [failed] at granted; cases granted

theorem shutdown_registration (r : Radio) (e : Endpoint) :
    (e.shutdown r).1.registration = none := by
  unfold Endpoint.shutdown
  cases current : e.registration with
  | none => exact current
  | some id => rfl

theorem register_granted {r : Radio} {path : String}
    (free : ∀ x ∈ r.resources, relatePaths x.path path ≠ .equal)
    (room : r.resources.length < maxResources) :
    (r.register path).2 = .ok r.nextRegistration := by
  unfold register
  rw [if_neg (by simpa using free), if_neg (Nat.not_le.mpr room)]

/-- An id tells one registration from the others: giving it up ends that registration and no other,
and an event for it leaves every service alone that has another registration. -/
structure TellsApart (r : Radio) : Prop where
  distinct : (r.resources.map (·.id)).Nodup
  removes : ∀ x ∈ r.resources, (r.unregister x.id).1.resources = r.resources.erase x
  dispatches : ∀ x ∈ r.resources, ∀ y ∈ r.resources,
    (r.unregister x.id).1.isRegistered y.id = true ↔ y ≠ x
  notifies : ∀ x ∈ r.resources, ∀ y ∈ r.resources, y ≠ x → ∀ (n : Node)
    (before after : List Service) (s : Service), s.registration = some y.id →
    (n.fire (.maxAge x.id) (before ++ s :: after)).2.1[before.length]? = some s

theorem eq_of_id {r : Radio} (distinct : (r.resources.map (·.id)).Nodup) {x y : Resource}
    (one : x ∈ r.resources) (other : y ∈ r.resources) (same : x.id = y.id) : x = y :=
  List.inj_on_of_nodup_map distinct one other same

theorem tellsApart_of_distinct {r : Radio} (distinct : (r.resources.map (·.id)).Nodup) :
    r.TellsApart where
  distinct := distinct
  removes x one := by
    rw [distinct.of_map.erase_eq_filter]
    refine List.filter_congr fun y other => ?_
    by_cases same : y = x
    · simp [same]
    · have apart : y.id ≠ x.id := fun id => same (eq_of_id distinct other one id)
      exact (bne_iff_ne.mpr apart).trans (bne_iff_ne.mpr same).symm
  dispatches x one y other := by
    simp only [isRegistered, unregister, List.any_filter, List.any_eq_true, Bool.and_eq_true,
      bne_iff_ne, beq_iff_eq]
    constructor
    · rintro ⟨z, member, differs, same⟩ rfl
      exact differs same
    · exact fun differs => ⟨y, other, fun id => differs (eq_of_id distinct other one id), rfl⟩
  notifies x one y other differs n before after s mine := by
    have apart : s.registration ≠ some x.id := by
      rw [mine]
      exact fun same => differs (eq_of_id distinct other one (Option.some.inj same))
    simp only [Node.fire, Service.forEach_middle, if_neg apart]

end Radio

/-! ## Runs of calls -/

inductive RegistryCall where
  | register (path : String)
  | unregister (id : RegistrationId)

/-- A radio, how many registrations it granted, and the current ones, each with the number granted
before it. -/
structure Roll where
  radio : Radio
  granted : Nat
  current : List (Nat × Resource)

namespace Roll

def start (self : NodeId) (config : Config) (clock : Clock) : Roll :=
  ⟨Radio.start self config clock, 0, []⟩

def step (s : Roll) : RegistryCall → Roll
  | .register path =>
    match s.radio.register path with
    | (radio, .ok id) => ⟨radio, s.granted + 1, s.current ++ [(s.granted, ⟨id, path⟩)]⟩
    | (radio, .error _) => { s with radio }
  | .unregister id =>
    { s with
      radio := (s.radio.unregister id).1
      current := s.current.filter fun x => x.2.id != id }

def after (s : Roll) (calls : List RegistryCall) : Roll := calls.foldl step s

/-- Current registrations stand in the order in which they were granted, under the ids counted. -/
structure Counted (s : Roll) : Prop where
  resources : s.radio.resources = s.current.map (·.2)
  next : s.radio.nextRegistration = ⟨.ofNat s.granted⟩
  ids : ∀ x ∈ s.current, x.2.id = ⟨.ofNat x.1⟩
  ordered : (s.current.map (·.1)).Pairwise (· < ·)
  earlier : ∀ x ∈ s.current, x.1 < s.granted

variable {s : Roll}

theorem step_granted {path : String}
    (granted : (s.radio.register path).2 = .ok s.radio.nextRegistration) :
    (s.step (.register path)).radio.resources =
        s.radio.resources ++ [⟨s.radio.nextRegistration, path⟩] ∧
      (s.step (.register path)).radio.nextRegistration = s.radio.nextRegistration.next ∧
      (s.step (.register path)).current =
        s.current ++ [(s.granted, ⟨s.radio.nextRegistration, path⟩)] ∧
      (s.step (.register path)).granted = s.granted + 1 := by
  obtain ⟨-, -, e, refused⟩ | ⟨resources, next, -⟩ := s.radio.register_cases path
  · rw [granted] at refused
    cases refused
  · unfold step
    simp only
    split
    · next whole =>
      rw [whole] at resources next granted
      cases granted
      exact ⟨resources, next, rfl, rfl⟩
    · next whole =>
      rw [whole] at granted
      cases granted

theorem start_counted (self : NodeId) (config : Config) (clock : Clock) :
    (start self config clock).Counted :=
  ⟨rfl, rfl, by simp [start], List.Pairwise.nil, by simp [start]⟩

theorem Counted.register (h : s.Counted) (path : String) : (s.step (.register path)).Counted := by
  obtain ⟨resources, next, e, refused⟩ | ⟨-, -, granted⟩ := s.radio.register_cases path
  · unfold step
    simp only
    split
    · next whole =>
      rw [whole] at refused
      cases refused
    · next whole =>
      rw [whole] at resources next
      exact ⟨resources.trans h.resources, next.trans h.next, h.ids, h.ordered, h.earlier⟩
  · obtain ⟨resources, next, current, more⟩ := step_granted granted
    refine ⟨?_, ?_, fun x member => ?_, ?_, fun x member => ?_⟩
    · rw [resources, current, h.resources, List.map_append]
      rfl
    · rw [next, more, h.next, UInt16.ofNat_add]
      rfl
    · rw [current] at member
      rcases List.mem_append.mp member with old | new
      · exact h.ids x old
      · rw [List.mem_singleton.mp new]
        exact h.next
    · rw [current]
      simpa [List.pairwise_append, h.ordered] using fun n x member => h.earlier (n, x) member
    · rw [current] at member
      rw [more]
      rcases List.mem_append.mp member with old | new
      · exact Nat.lt_succ_of_lt (h.earlier x old)
      · rw [List.mem_singleton.mp new]
        exact Nat.lt_succ_self _

theorem Counted.unregister (h : s.Counted) (id : RegistrationId) :
    (s.step (.unregister id)).Counted where
  resources := by simp [step, Radio.unregister, h.resources, List.filter_map, Function.comp_def]
  next := h.next
  ids x member := h.ids x (List.mem_of_mem_filter member)
  ordered := h.ordered.sublist (List.filter_sublist.map _)
  earlier x member := h.earlier x (List.mem_of_mem_filter member)

theorem Counted.step (h : s.Counted) (call : RegistryCall) : (s.step call).Counted := by
  cases call with
  | register path => exact h.register path
  | unregister id => exact h.unregister id

theorem Counted.after (h : s.Counted) (calls : List RegistryCall) : (s.after calls).Counted := by
  induction calls generalizing s with
  | nil => exact h
  | cons call rest ih => exact ih (h.step call)

/-- Ids tell no more than the count up to multiples of 65536. -/
theorem Counted.id_eq_iff (h : s.Counted) {x y : Nat × Resource} (one : x ∈ s.current)
    (other : y ∈ s.current) : x.2.id = y.2.id ↔ x.1 ≡ y.1 [MOD 65536] := by
  rw [h.ids x one, h.ids y other, RegistrationId.mk.injEq, ← UInt16.toNat_inj]
  simp [Nat.ModEq]

theorem Counted.distinct (h : s.Counted) (recent : ∀ x ∈ s.current, s.granted ≤ x.1 + 65536) :
    (s.radio.resources.map (·.id)).Nodup := by
  rw [h.resources, List.map_map, List.nodup_iff_pairwise_ne, List.pairwise_map]
  refine (List.pairwise_map.mp h.ordered).imp_of_mem fun {x y} one other before same => ?_
  have congruent := (h.id_eq_iff one other).mp same
  have oldest := recent x one
  have latest := h.earlier y other
  -- between the two less than 65536 registrations were granted
  unfold Nat.ModEq at congruent
  omega

/-- After any calls, two current registrations have one id just when a multiple of 65536
registrations was granted from one to the other. So ids tell them apart as long as each is among the
65536 granted last. -/
theorem ids_of_calls (self : NodeId) (config : Config) (clock : Clock)
    (calls : List RegistryCall) :
    let s := (start self config clock).after calls
    s.radio.resources = s.current.map (·.2) ∧ (s.current.map (·.1)).Pairwise (· < ·) ∧
      (∀ x ∈ s.current, ∀ y ∈ s.current, x.2.id = y.2.id ↔ x.1 ≡ y.1 [MOD 65536]) ∧
      ((∀ x ∈ s.current, s.granted ≤ x.1 + 65536) → s.radio.TellsApart) := by
  intro s
  have counted : s.Counted := (start_counted self config clock).after calls
  exact ⟨counted.resources, counted.ordered, fun x one y other => counted.id_eq_iff one other,
    fun recent => Radio.tellsApart_of_distinct (counted.distinct recent)⟩

/-- Two paths are registered, and the first is given up. -/
theorem ids_of_calls_pair :
    let calls := [.register "a", .register "b", .unregister ⟨0⟩, .register "a"]
    let s := (start 0 {} {}).after calls
    (∀ x ∈ s.current, s.granted ≤ x.1 + 65536) ∧
      s.radio.resources = [⟨⟨1⟩, "b"⟩, ⟨⟨2⟩, "a"⟩] ∧ s.radio.TellsApart := by
  intro calls s
  have recent : ∀ x ∈ s.current, s.granted ≤ x.1 + 65536 := by decide +kernel
  exact ⟨recent, by decide +kernel, (ids_of_calls 0 {} {} calls).2.2.2 recent⟩

/-! ## Once around -/

def churning (path : String) (times : Nat) : List RegistryCall :=
  (List.range times).flatMap fun k => [.register path, .unregister ⟨.ofNat (k + 1)⟩]

theorem churning_keeps (times : Nat) (around : times < 65536) :
    let s := (start 0 {} {}).after (.register "a" :: churning "b" times)
    s.radio.resources = [⟨⟨0⟩, "a"⟩] ∧ s.radio.nextRegistration = ⟨.ofNat (times + 1)⟩ := by
  induction times with
  | zero => decide +kernel
  | succ times ih =>
    obtain ⟨resources, next⟩ := ih (Nat.lt_of_succ_lt around)
    have again : (start 0 {} {}).after (.register "a" :: churning "b" (times + 1)) =
        (((start 0 {} {}).after (.register "a" :: churning "b" times)).step
          (.register "b")).step (.unregister ⟨.ofNat (times + 1)⟩) := by
      simp [churning, List.range_succ, after]
    rw [again]
    generalize (start 0 {} {}).after _ = s at resources next
    have other : relatePaths "a" "b" ≠ .equal := by decide +kernel
    have granted : (s.radio.register "b").2 = .ok s.radio.nextRegistration := Radio.register_granted
      (by simpa [resources] using other) (by simp [resources, maxResources])
    obtain ⟨resources', next', -, -⟩ := step_granted granted
    have fresh : (⟨0⟩ : RegistrationId) ≠ s.radio.nextRegistration := by
      rw [next, Ne, RegistrationId.mk.injEq, ← UInt16.toNat_inj]
      simp only [UInt16.toNat_ofNat']
      change 0 ≠ (times + 1) % 65536
      omega
    constructor
    · change ((s.step (.register "b")).radio.resources.filter fun x => x.id != _) = _
      rw [resources', resources, ← next]
      simp [fresh]
    · exact next'.trans (by rw [next, UInt16.ofNat_add (times + 1)]; rfl)

theorem churning_confuses {times : Nat} (around : times + 1 = 65536) :
    let s := (start 0 {} {}).after (.register "a" :: churning "b" times ++ [.register "c"])
    s.radio.resources = [⟨⟨0⟩, "a"⟩, ⟨⟨0⟩, "c"⟩] := by
  obtain ⟨resources, next⟩ := churning_keeps times (by omega)
  have last : (start 0 {} {}).after (.register "a" :: churning "b" times ++ [.register "c"]) =
      ((start 0 {} {}).after (.register "a" :: churning "b" times)).step (.register "c") := by
    simp [after]
  have other : relatePaths "a" "c" ≠ .equal := by decide +kernel
  rw [last]
  generalize (start 0 {} {}).after _ = s at resources next
  have granted : (s.radio.register "c").2 = .ok s.radio.nextRegistration := Radio.register_granted
    (by simpa [resources] using other) (by simp [resources, maxResources])
  refine (step_granted granted).1.trans ?_
  rw [resources, next, around]
  rfl

/-- One registration outlives 65535 others, and the next is granted under its id. Giving up either
ends both. -/
theorem ids_confused :
    let s := (start 0 {} {}).after (.register "a" :: churning "b" 65535 ++ [.register "c"])
    s.radio.resources = [⟨⟨0⟩, "a"⟩, ⟨⟨0⟩, "c"⟩] ∧ (s.radio.unregister ⟨0⟩).1.resources = [] := by
  have both := @churning_confuses 65535 rfl
  generalize (start 0 {} {}).after _ = s at both
  exact ⟨both, by simp [Radio.unregister, both]⟩

end Roll
end CoapNode
