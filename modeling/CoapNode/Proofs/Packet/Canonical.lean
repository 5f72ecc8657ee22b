import CoapNode.Proofs.Packet.Splicing
/-! Canonical packets. The options obey the option table, the region is their encoding,
index and count describe that region, and options and payload share the arena. Every edit
of the options is a splice, and splices keep packets canonical. -/
namespace CoapNode

/-- What the option table allows a stored option to be. -/
structure VisibleOption.Lawful (o : VisibleOption) : Prop where
  known : o.number.known = true
  visible : isFencepost o.number = false
  fits : o.value.length ≤ o.number.maxLength
  written : o.number.format = .text → o.value ≠ []

/-- An option list that a packet may hold. -/
structure LawfulOptions (options : List VisibleOption) : Prop where
  sorted : options.Pairwise fun a b => a.number ≤ b.number
  lawful : ∀ o ∈ options, o.Lawful
  single : ∀ n : OptionNumber, n.repeatable = false → (optionsAt n options).length ≤ 1

/-! ## The option table -/

theorem known_le_largestOption {n : OptionNumber} (known : n.known = true) :
    n ≤ largestOption := by
  simp only [OptionNumber.known, Bool.and_eq_true, decide_eq_true_eq] at known
  exact known.1

theorem maxLength_le (n : OptionNumber) : n.maxLength ≤ maxTextLength := by
  have table : ∀ t ∈ optionTable, t.maxLength ≤ maxTextLength := by decide
  unfold OptionNumber.maxLength OptionNumber.traits
  cases found : optionTable[n]? with
  | none => exact Nat.zero_le _
  | some t => exact table t (List.mem_of_getElem? found)

theorem delimited_repeatable {n : OptionNumber} {d : Char} (delimited : n.delimiter = some d) :
    n.repeatable = true := by
  unfold OptionNumber.delimiter at delimited
  split at delimited
  · next path => rcases path with rfl | rfl <;> decide
  · split at delimited
    · next query => rcases query with rfl | rfl <;> decide
    · cases delimited

/-! ## Lawful lists -/

theorem LawfulOptions.nil : LawfulOptions [] :=
  ⟨List.Pairwise.nil, by simp, fun _ _ => Nat.zero_le _⟩

theorem ascending_of_sorted (current : Nat) (options : List VisibleOption)
    (sorted : options.Pairwise fun a b => a.number ≤ b.number)
    (least : ∀ o ∈ options, current ≤ o.number) (lawful : ∀ o ∈ options, o.Lawful) :
    Ascending current options := by
  induction options generalizing current with
  | nil => trivial
  | cons o rest ih =>
    obtain ⟨first, later⟩ := List.pairwise_cons.mp sorted
    have this := lawful o (List.mem_cons_self ..)
    have small := known_le_largestOption this.known
    have fits := Nat.le_trans this.fits (maxLength_le o.number)
    exact ⟨⟨least o (List.mem_cons_self ..), Nat.le_trans small (by decide), fits⟩,
      ih o.number later first fun x member => lawful x (List.mem_cons_of_mem _ member)⟩

theorem LawfulOptions.ascending {options : List VisibleOption} (h : LawfulOptions options) :
    Ascending 0 options :=
  ascending_of_sorted 0 options h.sorted (fun _ _ => Nat.zero_le _) h.lawful

theorem LawfulOptions.visible {options : List VisibleOption} (h : LawfulOptions options) :
    Visible options := fun o member => (h.lawful o member).visible

theorem mem_splicedOptions {n : OptionNumber} {pieces : List (List UInt8)} {replace : Bool}
    {options : List VisibleOption} {o : VisibleOption}
    (member : o ∈ splicedOptions n pieces replace options) :
    o ∈ options ∨ o ∈ occurrences n pieces := by
  simp only [splicedOptions, optionsBelow, optionsAt, optionsAbove, List.mem_append,
    List.mem_filter] at member
  rcases member with ((below | kept) | new) | above
  · exact .inl below.1
  · cases replace with
    | true => cases kept
    | false => exact .inl (List.mem_filter.mp kept).1
  · exact .inr new
  · exact .inl above.1

theorem sorted_splicedOptions (n : OptionNumber) (pieces : List (List UInt8)) (replace : Bool)
    (options : List VisibleOption) (sorted : options.Pairwise fun a b => a.number ≤ b.number) :
    (splicedOptions n pieces replace options).Pairwise fun a b => a.number ≤ b.number := by
  have less : ∀ o ∈ optionsBelow n options, o.number < n := by simp [optionsBelow]
  have same : ∀ o ∈ (if replace then [] else optionsAt n options) ++ occurrences n pieces,
      o.number = n := by
    intro o member
    rcases List.mem_append.mp member with kept | new
    · cases replace with
      | true => cases kept
      | false => simpa [optionsAt] using (List.mem_filter.mp kept).2
    · obtain ⟨value, -, rfl⟩ := List.mem_map.mp new
      rfl
  have more : ∀ o ∈ optionsAbove n options, n < o.number := by simp [optionsAbove]
  rw [splicedOptions, List.append_assoc (optionsBelow n options)]
  generalize (if replace then [] else optionsAt n options) ++ occurrences n pieces = stretch at *
  rw [List.pairwise_append, List.pairwise_append]
  refine ⟨⟨sorted.filter _, ?_, ?_⟩, sorted.filter _, ?_⟩
  · exact List.pairwise_of_forall_mem_list fun a ha b hb => by rw [same a ha, same b hb]
  · intro a ha b hb
    rw [same b hb]
    exact Nat.le_of_lt (less a ha)
  · intro a ha b hb
    have := more b hb
    rcases List.mem_append.mp ha with ha | ha
    · have := less a ha; lia
    · have := same a ha; lia

theorem optionsAt_append (n : OptionNumber) (xs ys : List VisibleOption) :
    optionsAt n (xs ++ ys) = optionsAt n xs ++ optionsAt n ys := List.filter_append ..

theorem optionsAt_self {n : OptionNumber} {options : List VisibleOption}
    (same : ∀ o ∈ options, o.number = n) : optionsAt n options = options := by
  rw [optionsAt, List.filter_eq_self]
  intro o member
  simpa using same o member

theorem optionsAt_none {n : OptionNumber} {options : List VisibleOption}
    (other : ∀ o ∈ options, o.number ≠ n) : optionsAt n options = [] := by
  rw [optionsAt, List.filter_eq_nil_iff]
  intro o member
  simpa using other o member

theorem mem_occurrences {n : OptionNumber} {pieces : List (List UInt8)} {o : VisibleOption}
    (member : o ∈ occurrences n pieces) : o.number = n ∧ o.value ∈ pieces := by
  obtain ⟨value, listed, rfl⟩ := List.mem_map.mp member
  exact ⟨rfl, listed⟩

theorem optionsAt_spliced_same (n : OptionNumber) (pieces : List (List UInt8)) (replace : Bool)
    (options : List VisibleOption) :
    optionsAt n (splicedOptions n pieces replace options) =
      (if replace then [] else optionsAt n options) ++ occurrences n pieces := by
  have less : optionsAt n (optionsBelow n options) = [] := optionsAt_none fun o member => by
    have : o.number < n := by simpa using (List.mem_filter.mp member).2
    lia
  have more : optionsAt n (optionsAbove n options) = [] := optionsAt_none fun o member => by
    have : n < o.number := by simpa using (List.mem_filter.mp member).2
    lia
  have new : optionsAt n (occurrences n pieces) = occurrences n pieces :=
    optionsAt_self fun o member => (mem_occurrences member).1
  have kept : optionsAt n (if replace then [] else optionsAt n options) =
      if replace then [] else optionsAt n options := by
    apply optionsAt_self
    intro o member
    cases replace with
    | true => cases member
    | false => simpa [optionsAt] using (List.mem_filter.mp member).2
  rw [splicedOptions]
  simp only [optionsAt_append, less, more, new, kept, List.nil_append, List.append_nil]

theorem optionsAt_spliced_other {n m : OptionNumber} (other : m ≠ n)
    (pieces : List (List UInt8)) (replace : Bool) {options : List VisibleOption} {current : Nat}
    (ascending : Ascending current options) :
    optionsAt m (splicedOptions n pieces replace options) = optionsAt m options := by
  have at_n : optionsAt m (optionsAt n options) = [] := optionsAt_none fun o member => by
    have : o.number = n := by simpa using (List.mem_filter.mp member).2
    lia
  have new : optionsAt m (occurrences n pieces) = [] := optionsAt_none fun o member => by
    have := (mem_occurrences member).1
    lia
  have kept : optionsAt m (if replace then [] else optionsAt n options) = [] := by
    cases replace with
    | true => rfl
    | false => exact at_n
  conv => rhs; rw [split_at_number n ascending]
  simp only [splicedOptions, optionsAt_append, at_n, new, kept, List.append_nil]

theorem LawfulOptions.spliced {options : List VisibleOption} (h : LawfulOptions options)
    (n : OptionNumber) (pieces : List (List UInt8)) (replace : Bool)
    (lawful : ∀ value ∈ pieces, (VisibleOption.mk n value).Lawful)
    (single : n.repeatable = false →
      ((if replace then [] else optionsAt n options) ++ occurrences n pieces).length ≤ 1) :
    LawfulOptions (splicedOptions n pieces replace options) where
  sorted := sorted_splicedOptions n pieces replace options h.sorted
  lawful := by
    intro o member
    rcases mem_splicedOptions member with old | new
    · exact h.lawful o old
    · obtain ⟨value, listed, rfl⟩ := List.mem_map.mp new
      exact lawful value listed
  single := by
    intro m once
    by_cases same : m = n
    · subst same
      rw [optionsAt_spliced_same]
      exact single once
    · rw [optionsAt_spliced_other same pieces replace h.ascending]
      exact h.single m once

namespace Packet

variable {capacity : Nat}

structure Canonical (p : Packet capacity) : Prop where
  lawful : LawfulOptions p.options
  region : p.region = encodeOptions 0 p.options
  optionCount : p.optionCount = p.entries.length
  index : p.index = indexOf p.entries
  room : p.region.length + p.payload.length ≤ capacity

def withOptions (p : Packet capacity) (options : List VisibleOption) : Packet capacity :=
  { p with region := encodeOptions 0 options }.reindex

section

variable (p : Packet capacity) (options : List VisibleOption)

@[simp] theorem withOptions_region : (p.withOptions options).region = encodeOptions 0 options := rfl
@[simp] theorem withOptions_payload : (p.withOptions options).payload = p.payload := rfl
@[simp] theorem withOptions_version : (p.withOptions options).version = p.version := rfl
@[simp] theorem withOptions_kind : (p.withOptions options).kind = p.kind := rfl
@[simp] theorem withOptions_code : (p.withOptions options).code = p.code := rfl
@[simp] theorem withOptions_id : (p.withOptions options).id = p.id := rfl
@[simp] theorem withOptions_fault : (p.withOptions options).fault = p.fault := rfl

@[simp] theorem withOptions_withOptions (others : List VisibleOption) :
    (p.withOptions options).withOptions others = p.withOptions others := rfl

theorem withOptions_encodes (lawful : LawfulOptions options) :
    (p.withOptions options).Encodes options := ⟨rfl, lawful.ascending, lawful.visible⟩

theorem withOptions_options (lawful : LawfulOptions options) :
    (p.withOptions options).options = options := (p.withOptions_encodes options lawful).options_eq

theorem withOptions_canonical (lawful : LawfulOptions options)
    (room : (encodeOptions 0 options).length + p.payload.length ≤ capacity) :
    (p.withOptions options).Canonical where
  lawful := by rw [p.withOptions_options options lawful]; exact lawful
  region := by rw [p.withOptions_options options lawful]; rfl
  optionCount := rfl
  index := rfl
  room := room

end

variable {p : Packet capacity}

theorem Canonical.encodes (h : p.Canonical) : p.Encodes p.options :=
  ⟨h.region, h.lawful.ascending, h.lawful.visible⟩

/-- A canonical packet is determined by its header, its options and its payload. -/
theorem Canonical.withOptions_self (h : p.Canonical) : p.withOptions p.options = p := by
  rw [withOptions, ← h.region, reindex, show ({ p with region := p.region } : Packet capacity) = p
    from rfl, ← h.optionCount, ← h.index]

theorem Canonical.of_same_content (h : p.Canonical) {q : Packet capacity}
    (region : q.region = p.region) (payload : q.payload = p.payload)
    (optionCount : q.optionCount = p.optionCount) (index : q.index = p.index) :
    q.Canonical := by
  have entries : q.entries = p.entries := by rw [Packet.entries, region]; rfl
  have options : q.options = p.options := by
    rw [Packet.options, visibleEntries, entries]; rfl
  exact ⟨options ▸ h.lawful, by rw [region, options]; exact h.region,
    by rw [optionCount, entries]; exact h.optionCount, by rw [index, entries]; exact h.index,
    by rw [region, payload]; exact h.room⟩

theorem options_of_region_nil (region : p.region = []) : p.options = [] := by
  have entries : p.entries = [] := by
    rw [Packet.entries, region, walkOptions]
    rfl
  rw [Packet.options, visibleEntries, entries]
  rfl

theorem fresh_canonical (capacity : Nat) : (fresh capacity).Canonical := by
  have entries : (fresh capacity).entries = [] := by
    rw [Packet.entries, walkOptions]; rfl
  have options := options_of_region_nil (p := fresh capacity) rfl
  refine ⟨options ▸ LawfulOptions.nil, by rw [options]; rfl, by rw [entries]; rfl, ?_,
    Nat.zero_le _⟩
  rw [entries]
  rfl

theorem clear_canonical (p : Packet capacity) : p.clear.Canonical :=
  (fresh_canonical capacity).of_same_content rfl rfl rfl rfl

theorem Canonical.payloadStart_eq (h : p.Canonical) :
    p.payloadStart + p.payload.length = capacity := by
  have := h.room
  unfold payloadStart
  omega

/-- A splice replaces the options, or fails exactly when the new ones have no room. -/
theorem Canonical.splice_eq (h : p.Canonical) (n : OptionNumber) (pieces : List (List UInt8))
    (replace : Bool) :
    p.splice n pieces replace =
      if (encodeOptions 0 (splicedOptions n pieces replace p.options)).length +
          p.payload.length ≤ capacity then
        .ok (p.withOptions (splicedOptions n pieces replace p.options))
      else .error .noRoom := by
  have start := h.payloadStart_eq
  rw [h.encodes.splice_eq]
  split
  · next full => rw [if_neg (by omega)]
  · next fits => rw [if_pos (by omega)]; rfl

theorem Canonical.splice_canonical (h : p.Canonical) {n : OptionNumber}
    {pieces : List (List UInt8)} {replace : Bool} {q : Packet capacity}
    (lawful : LawfulOptions (splicedOptions n pieces replace p.options))
    (spliced : p.splice n pieces replace = .ok q) : q.Canonical := by
  rw [h.splice_eq] at spliced
  split at spliced
  · next fits =>
    cases spliced
    exact p.withOptions_canonical _ lawful fits
  · cases spliced

/-! ## Presence -/

theorem indexOf_getElem (entries : List OptionEntry) {n : Nat} (small : n ≤ largestOption) :
    (indexOf entries)[n]? = some ((entries.find? fun e =>
      e.number == n && !isFencepost e.number).map fun e => UInt16.ofNat e.start) := by
  rw [indexOf, List.getElem?_map, List.getElem?_range (Nat.lt_succ_of_le small)]
  rfl

theorem mem_options {o : VisibleOption} :
    o ∈ p.options ↔ ∃ e ∈ p.entries, isFencepost e.number = false ∧
      e.number = o.number ∧ e.value = o.value := by
  simp only [Packet.options, visibleEntries, List.mem_map, List.mem_filter, Bool.not_eq_true']
  constructor
  · rintro ⟨e, ⟨member, visible⟩, rfl⟩
    exact ⟨e, member, visible, rfl, rfl⟩
  · rintro ⟨e, member, visible, number, value⟩
    exact ⟨e, ⟨member, visible⟩, by rw [number, value]⟩

/-- Presence, though answered from the index, is occurrence among the options. -/
theorem Canonical.isSet_iff (h : p.Canonical) {n : OptionNumber} (known : n.known = true)
    (visible : isFencepost n = false) :
    p.isSet n = true ↔ ∃ o ∈ p.options, o.number = n := by
  rw [isSet, h.index, indexOf_getElem _ (known_le_largestOption known)]
  simp only [Option.getD_some, Option.isSome_map, List.find?_isSome, Bool.and_eq_true,
    beq_iff_eq, Bool.not_eq_true']
  constructor
  · rintro ⟨e, member, number, shown⟩
    exact ⟨⟨e.number, e.value⟩, mem_options.mpr ⟨e, member, shown, rfl, rfl⟩, number⟩
  · rintro ⟨o, member, rfl⟩
    obtain ⟨e, listed, shown, number, -⟩ := mem_options.mp member
    exact ⟨e, listed, number, shown⟩

theorem Canonical.unset_iff (h : p.Canonical) {n : OptionNumber} (known : n.known = true)
    (visible : isFencepost n = false) : p.isSet n = false ↔ ∀ o ∈ p.options, o.number ≠ n := by
  rw [← Bool.not_eq_true, h.isSet_iff known visible]
  simp

theorem Canonical.optionsAt_of_not_isSet (h : p.Canonical) {n : OptionNumber}
    (known : n.known = true) (visible : isFencepost n = false) (unset : p.isSet n = false) :
    optionsAt n p.options = [] := optionsAt_none ((h.unset_iff known visible).mp unset)

end Packet

/-! ## Values -/

theorem textBytes_eq_nil {s : String} : textBytes s = [] ↔ s = "" := by
  rw [textBytes, Array.toList_eq_nil_iff, String.toUTF8, ← String.toByteArray_inj]
  exact ⟨fun h => ByteArray.ext h, fun h => congrArg ByteArray.data h⟩

theorem mem_pathPieces_ne {d : Char} {s piece : String} (member : piece ∈ pathPieces d s) :
    piece ≠ "" := by
  simp only [pathPieces, List.mem_map, List.mem_filter, decide_eq_true_eq] at member
  obtain ⟨chars, ⟨-, nonempty⟩, rfl⟩ := member
  rwa [ne_eq, String.ofList_eq_empty_iff]

/-- Values that may become occurrences of an option. -/
structure LawfulPieces (n : OptionNumber) (pieces : List (List UInt8)) : Prop where
  lawful : ∀ value ∈ pieces, (VisibleOption.mk n value).Lawful
  once : n.repeatable = false → pieces.length ≤ 1

namespace OptionNumber

variable {n : OptionNumber} {v : OptionValue}

theorem accepts_ok (accepted : n.accepts v = .ok ()) :
    n.known = true ∧ isFencepost n = false ∧ v.format = n.format := by
  unfold OptionNumber.accepts at accepted
  split at accepted
  · cases accepted
  · next usable =>
    split at accepted
    · cases accepted
    · next same =>
      simp only [Bool.or_eq_true, Bool.not_eq_true', not_or, Bool.not_eq_false,
        Bool.not_eq_true] at usable
      exact ⟨usable.1, usable.2, not_not.mp same⟩

theorem single_lawful (known : n.known = true) (visible : isFencepost n = false)
    {value : List UInt8} (fits : ¬ n.maxLength < value.length)
    (written : n.format = .text → value ≠ []) : LawfulPieces n [value] where
  lawful := fun x member => by
    rw [List.mem_singleton.mp member]
    exact ⟨known, visible, Nat.le_of_not_lt fits, written⟩
  once := fun _ => Nat.le_refl _

theorem written_of_format {value : List UInt8} (format : v.format = n.format)
    (other : v.format ≠ .text) (text : n.format = .text) : value ≠ [] :=
  absurd (format.trans text) other

theorem delimited_lawful (known : n.known = true) (visible : isFencepost n = false) {d : Char}
    (delimited : n.delimiter = some d) (s : String)
    (fits : ¬ ((pathPieces d s).map textBytes).any (fun b => n.maxLength < b.length) = true) :
    LawfulPieces n ((pathPieces d s).map textBytes) where
  lawful := fun value member => by
    obtain ⟨piece, listed, rfl⟩ := List.mem_map.mp member
    refine ⟨known, visible, ?_, fun _ => ?_⟩
    · have := List.any_eq_false.mp (Bool.not_eq_true _ ▸ fits) _ member
      simpa using this
    · rw [ne_eq, textBytes_eq_nil]
      exact mem_pathPieces_ne listed
  once := fun once => by
    rw [delimited_repeatable delimited] at once
    cases once

theorem pieces_lawful {pieces : List (List UInt8)}
    (accepted : n.accepts v = .ok ()) (split : n.pieces v = .ok pieces) :
    LawfulPieces n pieces := by
  obtain ⟨known, visible, format⟩ := accepts_ok accepted
  cases v with
  | uint w =>
    simp only [OptionNumber.pieces] at split
    split at split
    · cases split
    · next fits =>
      cases split
      exact single_lawful known visible fits
        (written_of_format format (by simp [OptionValue.format]))
  | bytes b =>
    simp only [OptionNumber.pieces] at split
    split at split
    · cases split
    · next fits =>
      cases split
      exact single_lawful known visible fits
        (written_of_format format (by simp [OptionValue.format]))
  | empty =>
    cases split
    exact single_lawful known visible (Nat.not_lt_zero _)
      (written_of_format format (by simp [OptionValue.format]))
  | text s =>
    simp only [OptionNumber.pieces] at split
    split at split
    · next d delimited =>
      split at split
      · cases split
      · next fits =>
        cases split
        exact delimited_lawful known visible delimited s fits
    · split at split
      · cases split
      · next nonempty =>
        split at split
        · cases split
        · next fits =>
          cases split
          refine single_lawful known visible fits fun _ => ?_
          rw [ne_eq, textBytes_eq_nil]
          simpa using nonempty

end OptionNumber
end CoapNode
