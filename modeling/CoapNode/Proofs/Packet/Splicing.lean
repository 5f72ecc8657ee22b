import CoapNode.Proofs.Fenceposts
import CoapNode.Proofs.Packet.InPlace
/-! Splicing as an edit of the visible options. On a region that is the encoding of a list,
one splice yields the encoding of the edited list, or fails exactly when that has no room. -/
namespace CoapNode

/-- The entries of visible options among those that their encoding from `start` on has. -/
def placed (start current : Nat) (options : List VisibleOption) : List OptionEntry :=
  (layOut start (bridge current options)).filter fun e => !isFencepost e.number

def Visible (options : List VisibleOption) : Prop := ∀ o ∈ options, isFencepost o.number = false

theorem visible_append {xs ys : List VisibleOption} :
    Visible (xs ++ ys) ↔ Visible xs ∧ Visible ys := by
  simp only [Visible, List.mem_append]
  exact ⟨fun h => ⟨fun o m => h o (.inl m), fun o m => h o (.inr m)⟩,
    fun h o m => m.elim (h.1 o) (h.2 o)⟩

theorem visible_cons {o : VisibleOption} {rest : List VisibleOption} :
    Visible (o :: rest) ↔ isFencepost o.number = false ∧ Visible rest := by
  simp [Visible]

/-! ## Entries -/

theorem placed_append (start current : Nat) (xs ys : List VisibleOption) :
    placed start current (xs ++ ys) = placed start current xs ++
      placed (start + (encodeOptions current xs).length) (lastNumber current xs) ys := by
  simp only [placed, bridge_append, layOut_append _ current, List.filter_append, encodeOptions_eq]

theorem layOut_fenceposts (start current target length : Nat) :
    (layOut start (fenceposts current target length)).filter (fun e => !isFencepost e.number) =
      [] := by
  rw [List.filter_eq_nil_iff]
  intro e member
  have listed : VisibleOption.mk e.number e.value ∈ fenceposts current target length := by
    rw [← layOut_map start (fenceposts current target length)]
    exact List.mem_map_of_mem member
  simp [(mem_fenceposts listed).1]

theorem placed_cons (start current : Nat) (o : VisibleOption) (rest : List VisibleOption)
    (visible : isFencepost o.number = false) :
    let header := start +
      (encodeRaw current (fenceposts current o.number o.value.length)).length
    placed start current (o :: rest) =
      ⟨header, header + measureOption o.value.length, o.number, o.value⟩ ::
        placed (header + measureOption o.value.length) o.number rest := by
  simp only [placed, bridge, layOut_append _ current, List.filter_append, layOut_fenceposts,
    List.nil_append, layOut]
  rw [List.filter_cons_of_pos (by simp [visible])]

theorem placed_map (start current : Nat) (options : List VisibleOption)
    (visible : Visible options) :
    (placed start current options).map (fun e => VisibleOption.mk e.number e.value) = options := by
  have mapped := List.filter_map (l := layOut start (bridge current options))
    (f := fun e => VisibleOption.mk e.number e.value) (p := fun o => !isFencepost o.number)
  rw [layOut_map, filter_bridge _ _ visible] at mapped
  exact mapped.symm

theorem mem_placed {start current : Nat} {options : List VisibleOption}
    (visible : Visible options) {e : OptionEntry} (member : e ∈ placed start current options) :
    VisibleOption.mk e.number e.value ∈ options := by
  rw [← placed_map start current options visible]
  exact List.mem_map_of_mem member

theorem placed_getLast? (start current : Nat) (options : List VisibleOption)
    (visible : Visible options) :
    (placed start current options).getLast?.elim start (·.stop) =
        start + (encodeOptions current options).length ∧
      (placed start current options).getLast?.elim current (·.number) =
        lastNumber current options := by
  induction options generalizing start current with
  | nil => exact ⟨rfl, rfl⟩
  | cons o rest ih =>
    obtain ⟨now, later⟩ := visible_cons.mp visible
    have length : (encodeOptions current (o :: rest)).length =
        (encodeRaw current (fenceposts current o.number o.value.length)).length +
          measureOption o.value.length + (encodeOptions o.number rest).length := by
      simp only [encodeOptions, encodeFenceposts_eq, List.length_append, encodeOption_length]
    rw [placed_cons _ _ _ _ now, List.getLast?_cons, length]
    obtain ⟨stop, number⟩ := ih (start + (encodeRaw current
      (fenceposts current o.number o.value.length)).length + measureOption o.value.length)
      o.number later
    simp only [Option.elim_some, lastNumber]
    cases found : (placed (start + (encodeRaw current
      (fenceposts current o.number o.value.length)).length + measureOption o.value.length)
      o.number rest).getLast? with
    | none =>
      rw [found] at stop number
      simp only [Option.elim_none] at stop number
      exact ⟨by simp only [Option.getD_none]; omega, number⟩
    | some e =>
      rw [found] at stop number
      simp only [Option.elim_some] at stop number
      exact ⟨by simp only [Option.getD_some]; omega, number⟩

/-! ## Below, at and above a number -/

def optionsBelow (n : OptionNumber) (options : List VisibleOption) : List VisibleOption :=
  options.filter fun o => o.number < n

def optionsAt (n : OptionNumber) (options : List VisibleOption) : List VisibleOption :=
  options.filter fun o => o.number == n

def optionsAbove (n : OptionNumber) (options : List VisibleOption) : List VisibleOption :=
  options.filter fun o => n < o.number

theorem le_of_ascending {current : Nat} {options : List VisibleOption}
    (ascending : Ascending current options) {o : VisibleOption} (member : o ∈ options) :
    current ≤ o.number := by
  induction options generalizing current with
  | nil => cases member
  | cons x rest ih =>
    rcases List.mem_cons.mp member with rfl | later
    · exact ascending.1.1
    · exact Nat.le_trans ascending.1.1 (ih ascending.2 later)

theorem stretches_of_above {n : OptionNumber} {options : List VisibleOption}
    (past : ∀ x ∈ options, n < x.number) :
    optionsBelow n options = [] ∧ optionsAt n options = [] ∧ optionsAbove n options = options := by
  refine ⟨?_, ?_, ?_⟩
  · rw [optionsBelow, List.filter_eq_nil_iff]
    intro x member
    have := past x member
    simp; lia
  · rw [optionsAt, List.filter_eq_nil_iff]
    intro x member
    have := past x member
    simp; lia
  · rw [optionsAbove, List.filter_eq_self]
    intro x member
    simpa using past x member

theorem split_at_number {current : Nat} {options : List VisibleOption} (n : OptionNumber)
    (ascending : Ascending current options) :
    options = optionsBelow n options ++ optionsAt n options ++ optionsAbove n options := by
  induction options generalizing current with
  | nil => rfl
  | cons o rest ih =>
    have tail := ih ascending.2
    have least : ∀ x ∈ rest, o.number ≤ x.number := fun x member =>
      le_of_ascending ascending.2 member
    rcases Nat.lt_trichotomy o.number n with less | equal | more
    · unfold optionsBelow optionsAt optionsAbove at *
      rw [List.filter_cons_of_pos (by simpa using less),
        List.filter_cons_of_neg (by simp; lia), List.filter_cons_of_neg (by simp; lia)]
      exact congrArg (o :: ·) tail
    · have none : optionsBelow n rest = [] := by
        rw [optionsBelow, List.filter_eq_nil_iff]
        intro x member
        have := least x member
        simp; lia
      rw [none] at tail
      unfold optionsBelow optionsAt optionsAbove at *
      rw [List.filter_cons_of_neg (by simp; lia), List.filter_cons_of_pos (by simpa using equal),
        List.filter_cons_of_neg (by simp; lia), none]
      exact congrArg (o :: ·) tail
    · have past : ∀ x ∈ o :: rest, n < x.number := by
        intro x member
        rcases List.mem_cons.mp member with rfl | later
        · exact more
        · exact Nat.lt_of_lt_of_le more (least x later)
      obtain ⟨below, same, above⟩ := stretches_of_above past
      rw [below, same, above]
      rfl

/-- What a splice makes of the options: `pieces` become occurrences of `n`, after those
already there unless these are replaced. -/
def splicedOptions (n : OptionNumber) (pieces : List (List UInt8)) (replace : Bool)
    (options : List VisibleOption) : List VisibleOption :=
  optionsBelow n options ++ (if replace then [] else optionsAt n options) ++
    occurrences n pieces ++ optionsAbove n options

/-! ## One splice -/

theorem patchDelta_encodeOption (delta old : Nat) (value rest : List UInt8) (short : old ≤ 15) :
    Packet.patchDelta delta (encodeOption old value ++ rest) =
      encodeOption delta value ++ rest := by
  have low : ∀ length, length ≤ 15 → optionHeader old length &&& 15 = UInt8.ofNat length := by
    intro length fits
    apply UInt8.toNat_inj.mp
    rw [(optionHeader_parts old length short fits).2, UInt8.toNat_ofNat', Nat.mod_eq_of_lt]
    omega
  unfold encodeOption
  split
  · simp only [List.cons_append, Packet.patchDelta, low longLength (by decide)]
    rfl
  · next notLong =>
    simp only [longLength] at notLong
    simp only [List.cons_append, Packet.patchDelta, low value.length (by omega)]
    rfl

theorem patchDelta_length (delta : Nat) (bytes : List UInt8) :
    (Packet.patchDelta delta bytes).length = bytes.length := by
  cases bytes <;> rfl

theorem fillWindow_length (bytes : List UInt8) : fillWindow bytes.length bytes = bytes := by
  simp [fillWindow]

namespace Packet

variable {capacity : Nat}

theorem splice_of_parts (p : Packet capacity) (n : OptionNumber) (pieces : List (List UInt8))
    (replace : Bool) (front gap tail : List UInt8) (region : p.region = front ++ gap ++ tail)
    (start : (p.spanBefore n replace).elim 0 (·.stop) = front.length)
    (stop : (p.spanAfter n).elim p.region.length (·.start) = (front ++ gap).length) :
    let span := encodeSpan ((p.spanBefore n replace).elim 0 (·.number)) n
      ((p.spanAfter n).map fun e => { number := e.number, length := e.value.length }) pieces
    let region := front ++ span.1 ++
      (p.spanAfter n).elim tail (fun e => patchDelta (e.number - span.2) tail)
    p.splice n pieces replace =
      if p.payloadStart < region.length then .error .noRoom
      else .ok ({ p with region } : Packet capacity).reindex := by
  intro span newRegion
  have tailLength : ((p.spanAfter n).elim tail
      (fun e => patchDelta (e.number - span.2) tail)).length = tail.length := by
    cases p.spanAfter n with
    | none => rfl
    | some e => exact patchDelta_length _ _
  have size : p.region.length - ((front ++ gap).length - front.length) + span.1.length =
      newRegion.length := by
    simp only [newRegion, region, List.length_append, tailLength]
    omega
  have dropped : p.region.drop (front ++ gap).length = tail := by rw [region]; simp
  have taken : p.region.take front.length = front := by rw [region]; simp
  simp only [splice, Edit.splice, edited_get, edited_ite, start, stop, measureSpan_eq, dropped,
    taken]
  rw [show encodeSpan ((p.spanBefore n replace).elim 0 (·.number)) n
    ((p.spanAfter n).map fun e => { number := e.number, length := e.value.length }) pieces = span
    from rfl, size, fillWindow_length]
  rfl

/-- The region encodes this list and nothing else. -/
structure Encodes (p : Packet capacity) (options : List VisibleOption) : Prop where
  region : p.region = encodeOptions 0 options
  ascending : Ascending 0 options
  visible : Visible options

variable {p : Packet capacity} {options : List VisibleOption}

theorem Encodes.entries_eq (h : p.Encodes options) : p.entries = layOut 0 (bridge 0 options) := by
  rw [entries, h.region, encodeOptions_eq]
  exact walkOptions_encodeRaw _ _ _ (bridge_encodable _ _ h.ascending)

theorem Encodes.visibleEntries_eq (h : p.Encodes options) :
    p.visibleEntries = placed 0 0 options := by
  rw [visibleEntries, h.entries_eq]
  rfl

theorem Encodes.options_eq (h : p.Encodes options) : p.options = options := by
  rw [Packet.options, h.visibleEntries_eq]
  exact placed_map 0 0 options h.visible

theorem Encodes.visibleEntries_split (h : p.Encodes options) (n : OptionNumber) :
    let upTo := optionsBelow n options ++ optionsAt n options
    let later := placed (encodeOptions 0 upTo).length (lastNumber 0 upTo) (optionsAbove n options)
    (p.visibleEntries.takeWhile fun e => e.number ≤ n) = placed 0 0 upTo ∧
      (p.visibleEntries.dropWhile fun e => e.number ≤ n) = later := by
  intro upTo later
  have parts := visible_append.mp (split_at_number n h.ascending ▸ h.visible :
    Visible (upTo ++ optionsAbove n options))
  have entries : p.visibleEntries = placed 0 0 upTo ++ later := by
    rw [h.visibleEntries_eq]
    conv => lhs; rw [split_at_number n h.ascending]
    rw [placed_append, Nat.zero_add]
  have near : ∀ e ∈ placed 0 0 upTo, decide (e.number ≤ n) = true := by
    intro e member
    have listed := mem_placed parts.1 member
    simp only [optionsBelow, optionsAt, List.mem_append, List.mem_filter,
      decide_eq_true_eq, beq_iff_eq] at listed
    simp only [decide_eq_true_eq]
    lia
  have far : ∀ e ∈ later, decide (e.number ≤ n) = false := by
    intro e member
    have listed := mem_placed parts.2 member
    simp only [optionsAbove, List.mem_filter, decide_eq_true_eq] at listed
    simp only [decide_eq_false_iff_not]
    lia
  have first : ∀ nonempty : 0 < later.length, ¬ decide (later[0].number ≤ n) = true := by
    intro nonempty
    rw [far _ (List.getElem_mem nonempty)]
    decide
  rw [entries, List.takeWhile_append_of_pos near, List.dropWhile_append_of_pos near,
    List.takeWhile_eq_nil_iff.mpr first, List.dropWhile_eq_self_iff.mpr first, List.append_nil]
  exact ⟨rfl, rfl⟩

/-- The options that a splice leaves before its stretch. -/
def keptBefore (n : OptionNumber) (replace : Bool) (options : List VisibleOption) :
    List VisibleOption :=
  optionsBelow n options ++ if replace then [] else optionsAt n options

theorem Encodes.spanBefore_eq (h : p.Encodes options) (n : OptionNumber) (replace : Bool) :
    p.spanBefore n replace = (placed 0 0 (keptBefore n replace options)).getLast? := by
  have parts := visible_append.mp (split_at_number n h.ascending ▸ h.visible :
    Visible (optionsBelow n options ++ optionsAt n options ++ optionsAbove n options))
  obtain ⟨visibleBelow, visibleAt⟩ := visible_append.mp parts.1
  rw [spanBefore, (h.visibleEntries_split n).1, placed_append, keptBefore]
  cases replace with
  | false =>
    rw [if_neg (by decide), placed_append, List.filter_eq_self.mpr (by simp)]
  | true =>
    have kept : (placed 0 0 (optionsBelow n options)).filter
        (fun e => decide (e.number < n) || !true) = placed 0 0 (optionsBelow n options) := by
      rw [List.filter_eq_self]
      intro e member
      have listed := mem_placed visibleBelow member
      simpa [optionsBelow] using (List.mem_filter.mp listed).2
    have dropped : (placed (0 + (encodeOptions 0 (optionsBelow n options)).length)
        (lastNumber 0 (optionsBelow n options)) (optionsAt n options)).filter
        (fun e => decide (e.number < n) || !true) = [] := by
      rw [List.filter_eq_nil_iff]
      intro e member
      have listed := mem_placed visibleAt member
      have same : e.number = n := by simpa [optionsAt] using (List.mem_filter.mp listed).2
      simp [same]
    rw [if_pos rfl, List.append_nil, List.filter_append, kept, dropped, List.append_nil]

theorem keptBefore_visible {n : OptionNumber} (visible : Visible (optionsBelow n options ++
    optionsAt n options)) (replace : Bool) : Visible (keptBefore n replace options) := by
  cases replace with
  | false => exact visible
  | true =>
    exact visible_append.mpr ⟨(visible_append.mp visible).1, fun o member => by cases member⟩

/-- What a splice keeps in front is where the stretch that it replaces begins. -/
theorem keptBefore_front (n : OptionNumber) (replace : Bool) (options : List VisibleOption) :
    ∃ gap, encodeOptions 0 (optionsBelow n options ++ optionsAt n options) =
      encodeOptions 0 (keptBefore n replace options) ++ gap := by
  cases replace with
  | false => exact ⟨[], by simp [keptBefore]⟩
  | true =>
    rw [keptBefore, if_pos rfl, List.append_nil]
    exact ⟨_, encodeOptions_append _ _ _⟩

theorem encodeOptions_follower (kept pieces : List VisibleOption) (f : VisibleOption)
    (rest : List VisibleOption) :
    encodeOptions 0 (kept ++ pieces ++ f :: rest) =
      encodeOptions 0 kept ++ (encodeOptions (lastNumber 0 kept) (pieces ++ [f]) ++
        encodeOptions f.number rest) := by
  rw [List.append_assoc, List.append_cons, encodeOptions_append,
    encodeOptions_append (lastNumber 0 kept), lastNumber_append]
  rfl

/-- On an encoding a splice encodes the edited list, if that has room. -/
theorem Encodes.splice_eq (h : p.Encodes options) (n : OptionNumber)
    (pieces : List (List UInt8)) (replace : Bool) :
    p.splice n pieces replace =
      if p.payloadStart < (encodeOptions 0 (splicedOptions n pieces replace options)).length then
        .error .noRoom
      else .ok ({ p with
        region := encodeOptions 0 (splicedOptions n pieces replace options) } :
          Packet capacity).reindex := by
  have parts := visible_append.mp (split_at_number n h.ascending ▸ h.visible :
    Visible (optionsBelow n options ++ optionsAt n options ++ optionsAbove n options))
  obtain ⟨start, current⟩ := placed_getLast? 0 0 _ (keptBefore_visible parts.1 replace)
  rw [← h.spanBefore_eq, Nat.zero_add] at start
  rw [← h.spanBefore_eq] at current
  obtain ⟨gap, upTo_eq⟩ := keptBefore_front n replace options
  have after : p.spanAfter n = _ := congrArg List.head? (h.visibleEntries_split n).2
  have region : p.region = encodeOptions 0 (optionsBelow n options ++ optionsAt n options ++
      optionsAbove n options) := h.region.trans (congrArg _ (split_at_number n h.ascending))
  have spliced : splicedOptions n pieces replace options =
    keptBefore n replace options ++ occurrences n pieces ++ optionsAbove n options := rfl
  rw [spliced]
  generalize optionsBelow n options ++ optionsAt n options = upTo at *
  generalize keptBefore n replace options = kept at *
  cases follow : optionsAbove n options with
  | nil =>
    rw [follow] at after region
    replace after : p.spanAfter n = none := after
    rw [List.append_nil, upTo_eq] at region
    rw [splice_of_parts p n pieces replace (encodeOptions 0 kept) gap []
      (region.trans (List.append_nil _).symm) start (by rw [after, Option.elim_none, region])]
    simp only [after, current, Option.map_none, Option.elim_none, encodeSpan_end,
      List.append_nil, encodeOptions_append]
  | cons f rest =>
    rw [follow] at after region parts
    rw [placed_cons _ _ _ _ (visible_cons.mp parts.2).1] at after
    simp only [List.head?_cons] at after
    have reach := fenceposts_reach (lastNumber 0 upTo) f.number f.value.length
    rw [encodeOptions_append, upTo_eq, encodeOptions, encodeFenceposts_eq] at region
    generalize fenceposts (lastNumber 0 upTo) f.number f.value.length = posts at *
    have short : f.number - lastNumber (lastNumber 0 upTo) posts ≤ 15 := by
      rw [needsFencepost_eq_false] at reach; lia
    rw [splice_of_parts p n pieces replace (encodeOptions 0 kept)
      (gap ++ encodeRaw (lastNumber 0 upTo) posts)
      (encodeOption (f.number - lastNumber (lastNumber 0 upTo) posts) f.value ++
        encodeOptions f.number rest)
      (by rw [region]; simp only [List.append_assoc]) start
      (by rw [after, Option.elim_some, upTo_eq]; simp only [List.length_append]; omega)]
    rw [encodeOptions_follower, ← encodeSpan_follower]
    simp only [after, current, Option.map_some, Option.elim_some,
      patchDelta_encodeOption _ _ _ _ short, List.append_assoc]

end Packet
end CoapNode
