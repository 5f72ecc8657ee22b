import CoapNode.Proofs.Packet.Reading
/-! What a packet shows of an option number. The listing, the index and the walk over everything
encoded agree about every option. Fenceposts are in neither the listing nor the index, and no
typed read gives one, but the walk passes over them only on the way to another number: asked for
a fencepost, it yields an empty value for each one there is. -/
namespace CoapNode

theorem mem_bridge {current : Nat} {options : List VisibleOption} {o : VisibleOption}
    (member : o ∈ bridge current options) :
    o ∈ options ∨ isFencepost o.number = true ∧ o.value = [] := by
  induction options generalizing current with
  | nil => cases member
  | cons first rest ih =>
    rw [bridge, List.mem_append, List.mem_cons] at member
    rcases member with post | rfl | later
    · exact .inr (mem_fenceposts post)
    · exact .inl (List.mem_cons_self ..)
    · exact (ih later).imp_left (List.mem_cons_of_mem first)

theorem format_of_fencepost {n : OptionNumber} (fence : isFencepost n = true) :
    n.known = false ∨ n.format = .empty := by
  by_cases small : n ≤ largestOption
  · have table : ∀ m ≤ largestOption, isFencepost m = true → OptionNumber.format m = .empty := by
      decide
    exact .inr (table n small fence)
  · simp [OptionNumber.known, small]

namespace Packet

variable {capacity : Nat} {p : Packet capacity} {n : OptionNumber}

theorem Canonical.value_of_fencepost (h : p.Canonical) {e : OptionEntry} (member : e ∈ p.entries)
    (fence : isFencepost e.number = true) : e.value = [] := by
  have shown : e.shown ∈ bridge 0 p.options := by
    rw [← h.bridged]
    exact List.mem_map_of_mem member
  rcases mem_bridge shown with listed | ⟨-, blank⟩
  · have visible := (h.lawful.lawful _ listed).visible
    rw [show e.shown.number = e.number from rfl, fence] at visible
    cases visible
  · exact blank

theorem Canonical.segments_of_fencepost (h : p.Canonical) (fence : isFencepost n = true) :
    p.segments n = List.replicate (p.entries.countP fun e => e.number == n) [] := by
  rw [segments, takeWhile_dropWhile_sorted n h.sorted, List.eq_replicate_iff, List.length_map,
    List.countP_eq_length_filter]
  refine ⟨rfl, fun value member => ?_⟩
  obtain ⟨e, listed, rfl⟩ := List.mem_map.mp member
  obtain ⟨encoded, same⟩ := List.mem_filter.mp listed
  rw [beq_iff_eq] at same
  exact h.value_of_fencepost encoded (same ▸ fence)

/-- The index knows no other options than the listing, whatever the number. -/
theorem Canonical.isSet_iff_listed (h : p.Canonical) (n : OptionNumber) :
    p.isSet n = true ↔ ∃ o ∈ p.options, o.number = n := by
  by_cases usable : n.known = true ∧ isFencepost n = false
  · exact h.isSet_iff usable.1 usable.2
  · constructor
    · intro set
      have small : n ≤ largestOption := by
        by_contra beyond
        have outside : (indexOf p.entries)[n]? = none := by
          rw [List.getElem?_eq_none_iff, indexOf, List.length_map, List.length_range]
          exact Nat.lt_of_not_le beyond
        simp [isSet, h.index, outside] at set
      rw [isSet, h.index, indexOf_getElem _ small] at set
      simp only [Option.getD_some, Option.isSome_map, List.find?_isSome, Bool.and_eq_true,
        beq_iff_eq, Bool.not_eq_true'] at set
      obtain ⟨e, member, rfl, shown⟩ := set
      exact ⟨⟨e.number, e.value⟩, mem_options.mpr ⟨e, member, shown, rfl, rfl⟩, rfl⟩
    · rintro ⟨o, listed, rfl⟩
      have lawful := h.lawful.lawful o listed
      exact absurd ⟨lawful.known, lawful.visible⟩ usable

theorem checkFormat_of_fencepost (p : Packet capacity) (fence : isFencepost n = true)
    (format : OptionFormat) (carries : format ≠ .empty) :
    ∃ e, p.checkFormat n format = .error e := by
  unfold checkFormat
  rcases format_of_fencepost fence with unknown | empty
  · exact ⟨_, if_pos (by simp [unknown])⟩
  · split
    · exact ⟨_, rfl⟩
    · exact ⟨_, if_pos (by rw [empty]; exact carries.symm)⟩

/-- For every number, the index tells whether the listing has that option. The walk yields the
values in the listing, and for a fencepost, which is neither listed nor indexed, nothing but the
empty values of those that are encoded. Reads by kind of value refuse it. -/
theorem views_agree (capacity : Nat) (edits : List PacketEdit) (n : OptionNumber) :
    let p := reach capacity edits
    let listed := (optionsAt n p.options).map (·.value)
    p.isSet n = !listed.isEmpty ∧
      p.segments n = (if isFencepost n then
        List.replicate (p.entries.countP fun e => e.number == n) [] else listed) ∧
      (isFencepost n = true → listed = [] ∧ (∃ e, p.readUInt n = .error e) ∧
        (∃ e, p.readBytes n = .error e) ∧ ∀ limit, ∃ e, p.readText n limit = ("", .error e)) := by
  intro p listed
  have h : p.Canonical := reach_canonical capacity edits
  refine ⟨?_, ?_, fun fence => ⟨?_, ?_, ?_, fun limit => ?_⟩⟩
  · rw [Bool.eq_iff_iff, h.isSet_iff_listed n]
    simp [listed, optionsAt, List.filter_eq_nil_iff]
  · cases fence : isFencepost n with
    | true => exact h.segments_of_fencepost fence
    | false => exact h.segments_eq fence
  · have absent : optionsAt n p.options = [] := optionsAt_none fun o member same => by
      have visible := (h.lawful.lawful o member).visible
      rw [same, fence] at visible
      cases visible
    simp [listed, absent]
  · obtain ⟨e, refused⟩ := p.checkFormat_of_fencepost fence .uint (by decide)
    exact ⟨e, by simp [readUInt, refused, bind, Except.bind]⟩
  · obtain ⟨e, refused⟩ := p.checkFormat_of_fencepost fence .bytes (by decide)
    exact ⟨e, by simp [readBytes, refused, bind, Except.bind]⟩
  · obtain ⟨e, refused⟩ := p.checkFormat_of_fencepost fence .text (by decide)
    exact ⟨e, by simp [readText, refused]⟩

/-- A fencepost on the way to If-None-Match, which neither listing nor index has, and the walk
yields. -/
theorem segments_yield_fencepost :
    let p := reach 128 [.addOption .ifNoneMatch .empty]
    p.segments .fencepost = [[]] ∧ p.isSet .fencepost = false ∧
      p.options = [⟨.ifNoneMatch, []⟩] := by
  decide +kernel

end Packet
end CoapNode
