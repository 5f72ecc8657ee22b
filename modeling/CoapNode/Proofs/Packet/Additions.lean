import CoapNode.Proofs.Packet.Refinement
/-! Adding several options, and taking an option away again. Whether additions succeed, and
what they leave, is told by the values, by how many there are of each option, and by the list of
options at the end; none of these depends on the order in which different options are added. A
removal needs no room, and undoes the addition of an option that was not there before. -/
namespace CoapNode

/-- A call that adds an option. -/
structure Addition where
  number : OptionNumber
  value : OptionValue
  deriving DecidableEq

def Addition.entered (a : Addition) : List VisibleOption :=
  occurrences a.number (a.number.written a.value)

def additionsOf (n : OptionNumber) (additions : List Addition) : List Addition :=
  additions.filter fun a => a.number == n

/-- A sorted list after additions. -/
def inserted (additions : List Addition) (options : List VisibleOption) : List VisibleOption :=
  additions.foldl (fun options a => insertAfter a.number a.entered options) options

/-- What additions need besides room: every value suits its option, and an option that may
occur once is added once at most, and not if it is there already. -/
structure Suits (options : List VisibleOption) (additions : List Addition) : Prop where
  carries : ∀ a ∈ additions, a.number.Carries a.value
  once : ∀ n : OptionNumber, n.repeatable = false →
    (optionsAt n options).length + (additionsOf n additions).length ≤ 1

/-! ## Sorted lists -/

section

variable {n m : OptionNumber} {options others : List VisibleOption}

theorem lt_of_mem_dropWhile (sorted : options.Pairwise fun a b => a.number ≤ b.number)
    {o : VisibleOption} (member : o ∈ options.dropWhile fun o => o.number ≤ n) : n < o.number := by
  induction options with
  | nil => cases member
  | cons x rest ih =>
    obtain ⟨least, later⟩ := List.pairwise_cons.mp sorted
    by_cases low : x.number ≤ n
    · rw [List.dropWhile_cons_of_pos (by simpa using low)] at member
      exact ih later member
    · rw [List.dropWhile_cons_of_neg (by simpa using low)] at member
      rcases List.mem_cons.mp member with rfl | member
      · exact Nat.lt_of_not_le low
      · exact Nat.lt_of_lt_of_le (Nat.lt_of_not_le low) (least o member)

theorem sublist_insertAfter (n : OptionNumber) (new options : List VisibleOption) :
    options.Sublist (insertAfter n new options) := by
  conv => lhs; rw [← List.takeWhile_append_dropWhile (p := fun o => decide (o.number ≤ n))
    (l := options)]
  exact (List.sublist_append_left _ _).append_right _

theorem sorted_insertAfter (sorted : options.Pairwise fun a b => a.number ≤ b.number)
    {new : List VisibleOption} (same : ∀ o ∈ new, o.number = n) :
    (insertAfter n new options).Pairwise fun a b => a.number ≤ b.number := by
  have low : ∀ o ∈ options.takeWhile fun o => o.number ≤ n, o.number ≤ n := fun o member => by
    simpa using List.mem_takeWhile_imp member
  rw [insertAfter, List.append_assoc, List.pairwise_append, List.pairwise_append]
  refine ⟨sorted.sublist (List.takeWhile_sublist _), ⟨?_, ?_, ?_⟩, ?_⟩
  · exact List.pairwise_of_forall_mem_list fun a ha b hb => by rw [same a ha, same b hb]
  · exact sorted.sublist (List.dropWhile_sublist _)
  · intro a ha b hb
    rw [same a ha]
    exact Nat.le_of_lt (lt_of_mem_dropWhile sorted hb)
  · intro a ha b hb
    rcases List.mem_append.mp hb with new | above
    · rw [same b new]
      exact low a ha
    · exact Nat.le_of_lt (Nat.lt_of_le_of_lt (low a ha) (lt_of_mem_dropWhile sorted above))

theorem optionsAt_insertAfter (sorted : options.Pairwise fun a b => a.number ≤ b.number)
    {new : List VisibleOption} (same : ∀ o ∈ new, o.number = n) :
    optionsAt m (insertAfter n new options) = optionsAt m options ++ optionsAt m new := by
  have whole := congrArg (optionsAt m) (List.takeWhile_append_dropWhile
    (p := fun o => decide (o.number ≤ n)) (l := options))
  rw [optionsAt_append] at whole
  rw [insertAfter, optionsAt_append, optionsAt_append, ← whole]
  by_cases here : m = n
  · have none : optionsAt m (options.dropWhile fun o => decide (o.number ≤ n)) = [] :=
      optionsAt_none fun o member => by
        have := lt_of_mem_dropWhile sorted member
        lia
    rw [none, List.append_nil, List.append_nil]
  · have none : optionsAt m new = [] := optionsAt_none fun o member => by
      have := same o member
      lia
    rw [none, List.append_nil, List.append_nil]

/-- A sorted list is known by what it holds under each number. -/
theorem eq_of_optionsAt (sorted : options.Pairwise fun a b => a.number ≤ b.number)
    (sorted' : others.Pairwise fun a b => a.number ≤ b.number)
    (same : ∀ n, optionsAt n options = optionsAt n others) : options = others := by
  have exchange : ∀ o, o ∈ options ↔ o ∈ others := fun o => by
    have here := congrArg (o ∈ ·) (same o.number)
    simpa [optionsAt] using here
  induction options generalizing others with
  | nil =>
    refine (List.eq_nil_iff_forall_not_mem.mpr fun o member => ?_).symm
    cases (exchange o).mpr member
  | cons x rest ih =>
    cases others with
    | nil => cases (exchange x).mp (List.mem_cons_self ..)
    | cons y rest' =>
      obtain ⟨least, later⟩ := List.pairwise_cons.mp sorted
      obtain ⟨least', later'⟩ := List.pairwise_cons.mp sorted'
      have number : x.number = y.number := by
        apply Nat.le_antisymm
        · rcases List.mem_cons.mp ((exchange y).mpr (List.mem_cons_self ..)) with rfl | member
          · exact Nat.le_refl _
          · exact least y member
        · rcases List.mem_cons.mp ((exchange x).mp (List.mem_cons_self ..)) with rfl | member
          · exact Nat.le_refl _
          · exact least' x member
      have first : x = y := by
        have here := same x.number
        rw [optionsAt, optionsAt, List.filter_cons_of_pos (by simp),
          List.filter_cons_of_pos (by simp [number])] at here
        exact (List.cons.inj here).1
      subst first
      have tails : ∀ n, optionsAt n rest = optionsAt n rest' := fun n => by
        have here := same n
        unfold optionsAt at here ⊢
        rw [List.filter_cons, List.filter_cons] at here
        split at here
        · exact (List.cons.inj here).2
        · exact here
      rw [ih later later' tails fun o => ?_]
      have here := congrArg (o ∈ ·) (tails o.number)
      simpa [optionsAt] using here

end

/-! ## Additions -/

section

variable {n : OptionNumber} {v : OptionValue} {a : Addition} {additions : List Addition}
  {options : List VisibleOption}

theorem Addition.number_of_mem {o : VisibleOption} (member : o ∈ a.entered) :
    o.number = a.number := (mem_occurrences member).1

theorem optionsAt_entered (a : Addition) : optionsAt a.number a.entered = a.entered :=
  optionsAt_self fun _ => Addition.number_of_mem

theorem optionsAt_entered_other (other : a.number ≠ n) : optionsAt n a.entered = [] :=
  optionsAt_none fun _ member same => other ((Addition.number_of_mem member).symm.trans same)

theorem additionsOf_cons (a : Addition) (additions : List Addition) :
    additionsOf a.number (a :: additions) = a :: additionsOf a.number additions :=
  List.filter_cons_of_pos (by simp)

theorem additionsOf_cons_other (other : a.number ≠ n) :
    additionsOf n (a :: additions) = additionsOf n additions :=
  List.filter_cons_of_neg (by simpa using other)

theorem OptionNumber.written_single (once : n.repeatable = false) :
    (n.written v).length = 1 := by
  have whole : n.delimiter = none := by
    cases delimited : n.delimiter with
    | none => rfl
    | some d => rw [delimited_repeatable delimited] at once; cases once
  cases v <;> simp [written, whole]

theorem sorted_inserted (sorted : options.Pairwise fun a b => a.number ≤ b.number) :
    (inserted additions options).Pairwise fun a b => a.number ≤ b.number := by
  induction additions generalizing options with
  | nil => exact sorted
  | cons a rest ih => exact ih (sorted_insertAfter sorted fun _ => Addition.number_of_mem)

theorem optionsAt_inserted (sorted : options.Pairwise fun a b => a.number ≤ b.number) :
    optionsAt n (inserted additions options) =
      optionsAt n options ++ (additionsOf n additions).flatMap Addition.entered := by
  induction additions generalizing options with
  | nil => simp [inserted, additionsOf]
  | cons a rest ih =>
    have one : optionsAt n (insertAfter a.number a.entered options) =
        optionsAt n options ++ optionsAt n a.entered :=
      optionsAt_insertAfter sorted fun _ => Addition.number_of_mem
    have later := ih (sorted_insertAfter sorted fun _ => Addition.number_of_mem (a := a))
    rw [one, List.append_assoc] at later
    refine later.trans (congrArg _ ?_)
    by_cases here : a.number = n
    · subst here
      rw [additionsOf_cons, List.flatMap_cons, optionsAt_entered]
    · rw [additionsOf_cons_other here, optionsAt_entered_other here, List.nil_append]

theorem sublist_inserted : options.Sublist (inserted additions options) := by
  induction additions generalizing options with
  | nil => exact List.Sublist.refl _
  | cons a rest ih => exact (sublist_insertAfter _ _ _).trans ih

theorem suits_cons (lawful : LawfulOptions options) :
    Suits options (a :: additions) ↔ (a.number.Carries a.value ∧
      (a.number.repeatable = true ∨ ∀ o ∈ options, o.number ≠ a.number)) ∧
      Suits (insertAfter a.number a.entered options) additions := by
  have listed (n : OptionNumber) : optionsAt n (insertAfter a.number a.entered options) =
      optionsAt n options ++ optionsAt n a.entered :=
    optionsAt_insertAfter lawful.sorted fun _ => Addition.number_of_mem
  have counted (n : OptionNumber) (once : n.repeatable = false) :
      (optionsAt n a.entered).length + (additionsOf n additions).length =
        (additionsOf n (a :: additions)).length := by
    by_cases here : a.number = n
    · subst here
      rw [additionsOf_cons, optionsAt_entered, List.length_cons, Nat.add_comm, Addition.entered,
        occurrences, List.length_map, OptionNumber.written_single once]
    · rw [additionsOf_cons_other here, optionsAt_entered_other here, List.length_nil,
        Nat.zero_add]
  constructor
  · rintro ⟨carries, once⟩
    refine ⟨⟨carries a (List.mem_cons_self ..), ?_⟩,
      fun x member => carries x (List.mem_cons_of_mem _ member), fun n single => ?_⟩
    · cases single : a.number.repeatable with
      | true => exact .inl rfl
      | false =>
        have few := once a.number single
        rw [additionsOf_cons, List.length_cons] at few
        have none : optionsAt a.number options = [] := List.eq_nil_of_length_eq_zero (by omega)
        exact .inr (by simpa [optionsAt, List.filter_eq_nil_iff] using none)
    · have few := once n single
      rw [← counted n single] at few
      rw [listed, List.length_append]
      omega
  · rintro ⟨⟨first, free⟩, carries, once⟩
    refine ⟨fun x member => ?_, fun n single => ?_⟩
    · rcases List.mem_cons.mp member with rfl | later
      · exact first
      · exact carries x later
    · have few := once n single
      rw [listed, List.length_append] at few
      rw [← counted n single]
      omega

theorem Suits.lawful (suits : Suits options additions) (lawful : LawfulOptions options) :
    LawfulOptions (inserted additions options) := by
  induction additions generalizing options with
  | nil => exact lawful
  | cons a rest ih =>
    obtain ⟨⟨carries, free⟩, later⟩ := (suits_cons lawful).mp suits
    exact ih later (lawful.inserts carries free)

end

namespace Packet

variable {capacity : Nat} {n : OptionNumber} {v : OptionValue} {p q : Packet capacity}

/-- Adds options one after the other as long as that succeeds. -/
def addOptions (p : Packet capacity) (additions : List Addition) :
    Except CodecError (Packet capacity) :=
  additions.foldlM (fun p a => p.addOption a.number a.value) p

/-- Additions succeed if they suit the packet and what they come to has room. The options in
between need no more room, since they are among those at the end. -/
theorem Canonical.addOptions_iff {additions : List Addition} (h : p.Canonical) :
    p.addOptions additions = .ok q ↔
      (Suits p.options additions ∧
        (encodeOptions 0 (inserted additions p.options)).length ≤ p.payloadStart) ∧
      q = p.withOptions (inserted additions p.options) := by
  induction additions generalizing p with
  | nil =>
    have start := h.payloadStart_eq
    have room := h.room
    rw [h.region] at room
    have suits : Suits p.options [] := ⟨by simp, fun n single => h.lawful.single n single⟩
    have fits : (encodeOptions 0 (inserted [] p.options)).length ≤ p.payloadStart := by
      show (encodeOptions 0 p.options).length ≤ _
      omega
    rw [and_iff_right ⟨suits, fits⟩]
    show Except.ok p = .ok q ↔ q = p.withOptions p.options
    rw [h.withOptions_self, Except.ok.injEq, eq_comm]
  | cons a rest ih =>
    have next : p.addOptions (a :: rest) = .ok q ↔
        ∃ r, p.addOption a.number a.value = .ok r ∧ r.addOptions rest = .ok q := bind_eq_ok
    rw [next, suits_cons h.lawful]
    constructor
    · rintro ⟨r, first, later⟩
      have canonical := h.addOption first
      obtain ⟨⟨carries, free, -⟩, rfl⟩ := h.addOption_iff.mp first
      have options := p.withOptions_options _ (h.lawful.inserts carries free)
      obtain ⟨⟨suits, fits⟩, rfl⟩ := (ih canonical).mp later
      rw [options] at suits fits ⊢
      exact ⟨⟨⟨⟨carries, free⟩, suits⟩, fits⟩, rfl⟩
    · rintro ⟨⟨⟨⟨carries, free⟩, suits⟩, fits⟩, rfl⟩
      have lawful := h.lawful.inserts carries free
      have options := p.withOptions_options _ lawful
      have less : (encodeOptions 0 (insertAfter a.number a.entered p.options)).length ≤
          p.payloadStart :=
        Nat.le_trans (encodeOptions_sublist sublist_inserted (suits.lawful lawful).small 0) fits
      have first := h.addOption_iff.mpr ⟨⟨carries, free, less⟩, rfl⟩
      refine ⟨_, first, (ih (h.addOption first)).mpr ?_⟩
      rw [options]
      exact ⟨⟨suits, fits⟩, rfl⟩

/-- Additions that succeed in one order succeed in every other that leaves the additions of one
option in their order, in a full arena too, and leave the same packet. -/
theorem addOptions_any_order (capacity : Nat) (edits : List PacketEdit)
    {additions others : List Addition} (reordered : additions.Perm others)
    (alike : ∀ n, additionsOf n others = additionsOf n additions) {q : Packet capacity}
    (added : (reach capacity edits).addOptions additions = .ok q) :
    (reach capacity edits).addOptions others = .ok q := by
  have h := reach_canonical capacity edits
  obtain ⟨⟨suits, fits⟩, final⟩ := h.addOptions_iff.mp added
  have same : inserted others (reach capacity edits).options =
      inserted additions (reach capacity edits).options := by
    apply eq_of_optionsAt (sorted_inserted h.lawful.sorted) (sorted_inserted h.lawful.sorted)
    intro n
    rw [optionsAt_inserted h.lawful.sorted, optionsAt_inserted h.lawful.sorted, alike]
  have suits' : Suits (reach capacity edits).options others := by
    refine ⟨fun a member => suits.carries a (reordered.mem_iff.mpr member), fun n once => ?_⟩
    rw [alike]
    exact suits.once n once
  exact h.addOptions_iff.mpr ⟨⟨suits', by rwa [same]⟩, by rwa [same]⟩

/-- Additions that just fit beside a payload. In the other order the first one needs a fencepost,
which the second makes superfluous. -/
theorem addOptions_any_order_full :
    let text : OptionNumber → String → Addition := fun n s => ⟨n, .text s⟩
    let one := [text .uriPath "a/b", ⟨.ifNoneMatch, .empty⟩, text .uriHost "h", text .uriPath "c",
      text .uriQuery "d&e"]
    let other := [⟨.ifNoneMatch, .empty⟩, text .uriQuery "d&e", text .uriPath "a/b",
      text .uriPath "c", text .uriHost "h"]
    let edits := [.setPayload [1, 2, 3]]
    one.Perm other ∧ (∀ n, additionsOf n other = additionsOf n one) ∧
      ∃ q : Packet 16, (reach 16 edits).addOptions one = .ok q ∧ q.free = 0 ∧
        (reach 16 edits).addOptions other = .ok q := by
  intro text one other edits
  have reordered : one.Perm other := by decide +kernel
  have alike : ∀ n, additionsOf n other = additionsOf n one := by
    intro n
    simp only [additionsOf, one, other, text, List.filter_cons, List.filter_nil]
    grind [OptionNumber.uriPath, OptionNumber.ifNoneMatch, OptionNumber.uriHost,
      OptionNumber.uriQuery]
  have full : ((reach 16 edits).addOptions one).toOption.map free = some 0 := by decide +kernel
  cases added : (reach 16 edits).addOptions one with
  | error e => rw [added] at full; cases full
  | ok q =>
    rw [added] at full
    exact ⟨reordered, alike, q, rfl, Option.some.inj full,
      addOptions_any_order 16 edits reordered alike added⟩

/-! ## Removals -/

theorem without_insertAfter (n : OptionNumber) (pieces : List (List UInt8))
    (options : List VisibleOption) :
    without n (insertAfter n (occurrences n pieces) options) = without n options := by
  have none : without n (occurrences n pieces) = [] := by
    rw [without, List.filter_eq_nil_iff]
    intro o member
    simpa using (mem_occurrences member).1
  have whole := congrArg (without n) (List.takeWhile_append_dropWhile
    (p := fun o => decide (o.number ≤ n)) (l := options))
  unfold without at none whole ⊢
  rw [insertAfter, List.filter_append, List.filter_append, none, List.append_nil, ← whole,
    List.filter_append]

/-- An option of the table can always be removed, however full the arena is: it is not set any
more, no less is free, a second removal changes nothing, and a removal undoes the addition of an
option that was not set. -/
theorem removal_undoes (capacity : Nat) (edits : List PacketEdit) {n : OptionNumber}
    (known : n.known = true) (visible : isFencepost n = false) :
    let p := reach capacity edits
    (∃ q, p.removeOption n = .ok q ∧ q.isSet n = false ∧ p.free ≤ q.free ∧
        q.removeOption n = .ok q) ∧
      ∀ v q, p.isSet n = false → p.addOption n v = .ok q → q.removeOption n = .ok p := by
  intro p
  have h : p.Canonical := reach_canonical capacity edits
  constructor
  · have removed := h.removeOption_eq known visible
    have canonical := h.removeOption removed
    have options := p.withOptions_options _ (h.lawful.without n)
    have absent : ∀ o ∈ without n p.options, o.number ≠ n := by simp [without]
    refine ⟨_, removed, ?_, ?_, ?_⟩
    · rw [canonical.unset_iff known visible, options]
      exact absent
    · have less := encodeOptions_sublist (List.filter_sublist (p := fun o => o.number ≠ n))
        h.lawful.small 0
      rw [← h.region] at less
      exact Nat.sub_le_sub_left less _
    · rw [canonical.removeOption_eq known visible, options, without_of_absent absent,
        withOptions_withOptions]
  · intro v q unset added
    have canonical := h.addOption added
    obtain ⟨⟨carries, free, -⟩, rfl⟩ := h.addOption_iff.mp added
    have options := p.withOptions_options _ (h.lawful.inserts carries free)
    rw [canonical.removeOption_eq known visible, options, without_insertAfter,
      without_of_absent ((h.unset_iff known visible).mp unset), withOptions_withOptions,
      h.withOptions_self]

/-- In a full arena a removal makes room for just the fencepost that it makes necessary. -/
theorem removal_undoes_full :
    let p := reach 2 [.addOption .observe (.uint 0), .addOption .ifNoneMatch .empty]
    OptionNumber.observe.known = true ∧ isFencepost OptionNumber.observe = false ∧
      ∃ q, p.removeOption .observe = .ok q ∧ q.isSet .observe = false ∧
        p.free ≤ q.free ∧ q.removeOption .observe = .ok q ∧
        p.free = 0 ∧ q.region = [0xE0, 0x70] := by
  intro p
  have known : OptionNumber.observe.known = true := by decide
  have visible : isFencepost OptionNumber.observe = false := by decide
  obtain ⟨q, removed, unset, room, again⟩ := (removal_undoes 2 [.addOption .observe (.uint 0),
    .addOption .ifNoneMatch .empty] known visible).1
  have region : (p.removeOption .observe).toOption.map (·.region) = some [0xE0, 0x70] := by
    decide +kernel
  rw [show p.removeOption .observe = .ok q from removed] at region
  exact ⟨known, visible, q, removed, unset, room, again, by decide +kernel,
    Option.some.inj region⟩

end Packet
end CoapNode
