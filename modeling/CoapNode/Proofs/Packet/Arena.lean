import CoapNode.Proofs.Packet.Edits
/-! The arena of a packet that a caller can hold. Its encoded options cover the region
without a gap, each is lawful, each header states a distance that fits, and fenceposts
stand exactly where the distance between two neighbours asks for them. -/
namespace CoapNode

/-- Entries that lie one after the other, from one offset to another. -/
def Tiles (start : Nat) : List OptionEntry → Nat → Prop
  | [], stop => start = stop
  | e :: rest, stop => e.start = start ∧ start < e.stop ∧ Tiles e.stop rest stop

/-- The header of every entry states the distance from the entry before it, and none is
the end marker. -/
def Headed (region : List UInt8) (current : Nat) : List OptionEntry → Prop
  | [] => True
  | e :: rest =>
    (∃ header, region[e.start]? = some header ∧ header ≠ endOfOptions ∧
      current ≤ e.number ∧ (header >>> 4).toNat = e.number - current ∧
      e.number - current ≤ 15) ∧ Headed region e.number rest

def OptionEntry.shown (e : OptionEntry) : VisibleOption := ⟨e.number, e.value⟩

theorem tiles_layOut (start current : Nat) (options : List VisibleOption) :
    Tiles start (layOut start options) (start + (encodeRaw current options).length) := by
  induction options generalizing start current with
  | nil => rfl
  | cons o rest ih =>
    have positive : 0 < measureOption o.value.length := by
      unfold measureOption; split <;> omega
    refine ⟨rfl, by simpa using positive, ?_⟩
    have tail := ih (start + measureOption o.value.length) o.number
    rwa [encodeRaw, List.length_append, encodeOption_length, ← Nat.add_assoc]

theorem headed_layOut (front : List UInt8) (current : Nat) (options : List VisibleOption)
    (encodable : Encodable current options) :
    Headed (front ++ encodeRaw current options) current (layOut front.length options) := by
  induction options generalizing front current with
  | nil => trivial
  | cons o rest ih =>
    obtain ⟨⟨ascends, -, -, reach⟩, tail⟩ := encodable
    have short : o.number - current ≤ 15 := by
      rw [needsFencepost_eq_false] at reach; lia
    refine ⟨⟨headerOf (o.number - current) o.value, ?_, headerOf_ne_endOfOptions reach, ascends,
      (optionHeader_parts _ _ short (Nat.min_le_right _ _)).1, short⟩, ?_⟩
    · rw [encodeRaw, encodeOption_eq_cons]
      simp
    · have later := ih (front ++ encodeOption (o.number - current) o.value) o.number tail
      rwa [List.length_append, encodeOption_length, List.append_assoc] at later

theorem encodable_sorted (current : Nat) (options : List VisibleOption)
    (encodable : Encodable current options) :
    options.Pairwise (fun a b => a.number ≤ b.number) ∧ ∀ o ∈ options, current ≤ o.number := by
  induction options generalizing current with
  | nil => exact ⟨List.Pairwise.nil, by simp⟩
  | cons o rest ih =>
    obtain ⟨sorted, least⟩ := ih o.number encodable.2
    refine ⟨List.pairwise_cons.mpr ⟨least, sorted⟩, fun x member => ?_⟩
    rcases List.mem_cons.mp member with rfl | later
    · exact encodable.1.1
    · exact Nat.le_trans encodable.1.1 (least x later)

theorem Tiles.start_lt {start stop : Nat} {entries : List OptionEntry}
    (tiles : Tiles start entries stop) : start ≤ stop ∧ ∀ e ∈ entries, e.start < stop := by
  induction entries generalizing start with
  | nil => exact ⟨Nat.le_of_eq tiles, by simp⟩
  | cons x rest ih =>
    obtain ⟨here, positive, tail⟩ := tiles
    obtain ⟨le, later⟩ := ih tail
    refine ⟨by omega, fun e member => ?_⟩
    rcases List.mem_cons.mp member with rfl | member
    · omega
    · exact later e member

namespace Packet

variable {capacity : Nat}

structure ArenaInvariant (p : Packet capacity) : Prop where
  /-- Options and payload do not overlap, and the payload ends the arena. -/
  disjoint : p.region.length ≤ p.payloadStart ∧ p.payloadStart + p.payload.length = capacity
  tiles : Tiles 0 p.entries p.region.length
  sorted : p.entries.Pairwise fun a b => a.number ≤ b.number
  lawful : ∀ e ∈ p.entries, isFencepost e.number = false → e.shown.Lawful
  single : ∀ n : OptionNumber, isFencepost n = false → n.repeatable = false →
    (p.entries.filter fun e => e.number == n).length ≤ 1
  headed : Headed p.region 0 p.entries
  /-- Between two visible neighbours stand the fenceposts that their distance needs. -/
  bridged : p.entries.map OptionEntry.shown = bridge 0 p.options
  region : p.region = encodeOptions 0 p.options
  optionCount : p.optionCount = p.entries.length
  index : p.index.length = largestOption + 1 ∧ ∀ n ≤ largestOption,
    (p.index[n]?.getD none).map UInt16.toNat =
      if isFencepost n then none
      else (p.entries.find? fun e => e.number == n).map (·.start)

variable {p : Packet capacity}

theorem Canonical.bridged (h : p.Canonical) :
    p.entries.map OptionEntry.shown = bridge 0 p.options := by
  rw [h.encodes.entries_eq]
  exact layOut_map 0 _

theorem Canonical.tiles (h : p.Canonical) : Tiles 0 p.entries p.region.length := by
  have tiles := tiles_layOut 0 0 (bridge 0 p.options)
  rwa [← h.encodes.entries_eq, ← encodeOptions_eq, ← h.region, Nat.zero_add] at tiles

theorem Canonical.headed (h : p.Canonical) : Headed p.region 0 p.entries := by
  have headed := headed_layOut [] 0 _ (bridge_encodable 0 p.options h.lawful.ascending)
  rwa [List.nil_append, ← encodeOptions_eq, ← h.region, List.length_nil,
    ← h.encodes.entries_eq] at headed

theorem Canonical.sorted (h : p.Canonical) :
    p.entries.Pairwise fun a b => a.number ≤ b.number := by
  have sorted := (encodable_sorted 0 _ (bridge_encodable 0 p.options h.lawful.ascending)).1
  rw [← h.bridged, List.pairwise_map] at sorted
  exact sorted

theorem filter_entries_values (p : Packet capacity) {n : OptionNumber}
    (visible : isFencepost n = false) :
    (p.entries.filter fun e => e.number == n).map (·.value) =
      (optionsAt n p.options).map (·.value) := by
  have shown : p.entries.filter (fun e => e.number == n) =
      p.visibleEntries.filter fun e => e.number == n := by
    rw [visibleEntries, List.filter_filter]
    apply List.filter_congr
    intro e _
    cases same : e.number == n with
    | false => rfl
    | true =>
      rw [beq_iff_eq] at same
      simp [same, visible]
  rw [shown, optionsAt, Packet.options, List.filter_map, List.map_map]
  rfl

theorem filter_entries_length (n : OptionNumber) (visible : isFencepost n = false) :
    (p.entries.filter fun e => e.number == n).length = (optionsAt n p.options).length := by
  simpa using congrArg List.length (p.filter_entries_values visible)

theorem find?_visible (entries : List OptionEntry) (n : Nat) :
    (entries.find? fun e => e.number == n && !isFencepost e.number) =
      if isFencepost n then none else entries.find? fun e => e.number == n := by
  split
  · next fence =>
    rw [List.find?_eq_none]
    intro e _ both
    simp only [Bool.and_eq_true, beq_iff_eq, Bool.not_eq_true'] at both
    rw [both.1, fence] at both
    cases both.2
  · next visible =>
    congr 1
    funext e
    cases same : e.number == n with
    | false => rfl
    | true =>
      rw [beq_iff_eq] at same
      simpa [same] using visible

theorem Canonical.index_offsets (h : p.Canonical) (small : capacity ≤ 65536) :
    p.index.length = largestOption + 1 ∧ ∀ n ≤ largestOption,
      (p.index[n]?.getD none).map UInt16.toNat =
        if isFencepost n then none
        else (p.entries.find? fun e => e.number == n).map (·.start) := by
  refine ⟨by rw [h.index]; simp [indexOf], fun n bound => ?_⟩
  rw [h.index, indexOf_getElem _ bound, find?_visible]
  split
  · rfl
  · simp only [Option.getD_some, Option.map_map]
    cases found : p.entries.find? fun e => e.number == n with
    | none => rfl
    | some e =>
      have inside := h.tiles.start_lt.2 e (List.mem_of_find?_eq_some found)
      have room := h.room
      simp only [Option.map_some, Function.comp, Option.some.injEq]
      rw [UInt16.toNat_ofNat', Nat.mod_eq_of_lt (by omega)]

/-- Whatever changes a caller made, failed or not, the arena is in order. An index keeps
sixteen bits of an offset, so the arena must not be larger than they can tell. -/
theorem arena_of_edits (capacity : Nat) (small : capacity ≤ 65536) (edits : List PacketEdit) :
    (reach capacity edits).ArenaInvariant := by
  have h := reach_canonical capacity edits
  have start := h.payloadStart_eq
  have room := h.room
  exact {
    disjoint := ⟨by omega, start⟩
    tiles := h.tiles
    sorted := h.sorted
    lawful := fun e member visible =>
      h.lawful.lawful _ (mem_options.mpr ⟨e, member, visible, rfl, rfl⟩)
    single := fun n visible once => by
      rw [filter_entries_length n visible]
      exact h.lawful.single n once
    headed := h.headed
    bridged := h.bridged
    region := h.region
    optionCount := h.optionCount
    index := h.index_offsets small }

/-- The largest arena, with a critical option far from the others and a refused datagram
before it. -/
theorem arena_of_edits_largest : 65536 ≤ 65536 ∧
    (reach 65536 [.read [0x41, 1], .addOption .uriPath (.text "a/b"),
      .addOption .ifNoneMatch .empty]).ArenaInvariant :=
  ⟨Nat.le_refl _, arena_of_edits 65536 (Nat.le_refl _) _⟩

end Packet
end CoapNode
