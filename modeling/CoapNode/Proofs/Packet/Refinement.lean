import CoapNode.Proofs.Packet.Edits
import CoapNode.Proofs.ShortBytes
/-! Editing a packet's options refines editing a sorted list. Occurrences are inserted after
all options numbered at most as high, a removal drops them, and replacing them is the one after
the other. The list decides whether an edit succeeds: what the option may hold, and whether the
encoding of the resulting list stays below the payload. -/
namespace CoapNode

/-! ## Values -/

theorem splitPieces_eq (delimiter : Char) (chars : List Char) :
    splitPieces delimiter chars = chars.splitOn delimiter := by
  induction chars with
  | nil => rfl
  | cons c rest ih =>
    rw [List.splitOn, List.splitOnP_cons_eq_if_modifyHead, ← List.splitOn, ← ih, splitPieces]
    by_cases same : c = delimiter
    · simp [same]
    · have some : splitPieces delimiter rest ≠ [] := by
        rw [ih]
        exact List.splitOnP_ne_nil _ _
      cases found : splitPieces delimiter rest with
      | nil => exact absurd found some
      | cons piece others => simp [same]

namespace OptionNumber

/-- The occurrences that a value stands for: a number's digits to the base 256, the pieces of a
delimited text that are not empty, and otherwise the bytes themselves. -/
def written (n : OptionNumber) : OptionValue → List (List UInt8)
  | .uint w => [(Nat.digits 256 w.toNat).reverse.map UInt8.ofNat]
  | .bytes b => [b]
  | .empty => [[]]
  | .text s =>
    match n.delimiter with
    | some d => ((s.toList.splitOn d).filter (· ≠ [])).map fun piece => textBytes (.ofList piece)
    | none => [textBytes s]

theorem written_uint (n : OptionNumber) (w : UInt32) : n.written (.uint w) = [minimalBytes w] := by
  rw [written, minimalBytes_eq]

/-- What a value must be like for the option, whatever the packet holds. -/
structure Carries (n : OptionNumber) (v : OptionValue) : Prop where
  known : n.known = true
  visible : isFencepost n = false
  format : v.format = n.format
  short : ∀ value ∈ n.written v, value.length ≤ n.maxLength
  nonempty : ∀ s, v = .text s → n.delimiter = none → s ≠ ""

variable {n : OptionNumber} {v : OptionValue}

theorem accepts_iff : n.accepts v = .ok () ↔
    n.known = true ∧ isFencepost n = false ∧ v.format = n.format := by
  refine ⟨accepts_ok, ?_⟩
  rintro ⟨known, visible, format⟩
  simp [accepts, known, visible, format]

theorem single_iff {limit : Nat} {b : List UInt8} {pieces : List (List UInt8)} :
    (if limit < b.length then .error .valueTooLong else .ok [b] :
      Except CodecError (List (List UInt8))) = .ok pieces ↔ pieces = [b] ∧ b.length ≤ limit := by
  by_cases long : limit < b.length
  · simp [long]
  · simp [long, Nat.le_of_not_lt long, eq_comm]

theorem pieces_iff {pieces : List (List UInt8)} : n.pieces v = .ok pieces ↔
    pieces = n.written v ∧ (∀ value ∈ n.written v, value.length ≤ n.maxLength) ∧
      ∀ s, v = .text s → n.delimiter = none → s ≠ "" := by
  cases v with
  | uint w => simp only [OptionNumber.pieces, written, ← minimalBytes_eq, single_iff]; simp
  | bytes b => simp only [OptionNumber.pieces, written, single_iff]; simp
  | empty => simp [OptionNumber.pieces, written, eq_comm]
  | text s =>
    cases delimited : n.delimiter with
    | none =>
      by_cases none : s = ""
      · simp [OptionNumber.pieces, written, delimited, none]
      · have filled : s.isEmpty = false := by simpa using none
        simp only [OptionNumber.pieces, written, delimited, filled, Bool.false_eq_true, if_false,
          single_iff]
        simp [none]
    | some d =>
      have same : (pathPieces d s).map textBytes = n.written (.text s) := by
        simp [pathPieces, written, delimited, splitPieces_eq, Function.comp_def]
      simp only [OptionNumber.pieces, delimited, same]
      by_cases long : ∃ value ∈ n.written (.text s), n.maxLength < value.length
      · obtain ⟨value, member, long⟩ := long
        have some : (n.written (.text s)).any (fun b => n.maxLength < b.length) = true :=
          List.any_eq_true.mpr ⟨value, member, by simpa using long⟩
        rw [if_pos some]
        constructor
        · intro impossible; cases impossible
        · rintro ⟨-, short, -⟩
          have := short value member
          omega
      · have none : ¬ (n.written (.text s)).any (fun b => n.maxLength < b.length) = true := by
          simpa using long
        push Not at long
        rw [if_neg none, Except.ok.injEq]
        constructor
        · rintro rfl
          exact ⟨rfl, long, by simp⟩
        · rintro ⟨rfl, -⟩
          rfl

end OptionNumber

/-! ## Sorted lists -/

def insertAfter (n : OptionNumber) (new options : List VisibleOption) : List VisibleOption :=
  options.takeWhile (fun o => o.number ≤ n) ++ new ++ options.dropWhile (fun o => o.number ≤ n)

def without (n : OptionNumber) (options : List VisibleOption) : List VisibleOption :=
  options.filter fun o => o.number ≠ n

section

variable {n : OptionNumber} {options : List VisibleOption}

theorem spliced_inserts (lawful : LawfulOptions options) (pieces : List (List UInt8)) :
    splicedOptions n pieces false options = insertAfter n (occurrences n pieces) options := by
  have upTo : ∀ o ∈ optionsBelow n options ++ optionsAt n options, o.number ≤ n := by
    intro o member
    rcases List.mem_append.mp member with below | same
    · exact Nat.le_of_lt (by simpa using (List.mem_filter.mp below).2)
    · exact Nat.le_of_eq (by simpa using (List.mem_filter.mp same).2)
  have past : ∀ o ∈ optionsAbove n options, ¬ o.number ≤ n := by simp [optionsAbove]
  have split := split_at_number n lawful.ascending
  rw [insertAfter, splicedOptions, if_neg (by decide)]
  generalize optionsBelow n options ++ optionsAt n options = front at *
  generalize optionsAbove n options = back at *
  rw [split, List.takeWhile_append_of_pos (by simpa using upTo),
    List.dropWhile_append_of_pos (by simpa using upTo)]
  cases back with
  | nil => simp
  | cons o rest =>
    have first := past o (List.mem_cons_self ..)
    rw [List.takeWhile_cons_of_neg (by simpa using first),
      List.dropWhile_cons_of_neg (by simpa using first), List.append_nil]

theorem spliced_drops (lawful : LawfulOptions options) :
    splicedOptions n [] true options = without n options := by
  have below : without n (optionsBelow n options) = optionsBelow n options := by
    rw [without, List.filter_eq_self]
    intro o member
    have : o.number < n := by simpa using (List.mem_filter.mp member).2
    simpa using Nat.ne_of_lt this
  have same : without n (optionsAt n options) = [] := by
    rw [without, List.filter_eq_nil_iff]
    intro o member
    simpa using (List.mem_filter.mp member).2
  have above : without n (optionsAbove n options) = optionsAbove n options := by
    rw [without, List.filter_eq_self]
    intro o member
    have : n < o.number := by simpa using (List.mem_filter.mp member).2
    simpa using Nat.ne_of_gt this
  have dropped : without n options = optionsBelow n options ++ optionsAbove n options := by
    conv => lhs; rw [split_at_number n lawful.ascending]
    rw [without, List.filter_append, List.filter_append, ← without, ← without, ← without, below,
      same, above, List.append_nil]
  simp [splicedOptions, occurrences, dropped]

theorem LawfulOptions.inserts {v : OptionValue} (lawful : LawfulOptions options)
    (carries : n.Carries v) (free : n.repeatable = true ∨ ∀ o ∈ options, o.number ≠ n) :
    LawfulOptions (insertAfter n (occurrences n (n.written v)) options) := by
  have accepted := OptionNumber.accepts_iff.mpr ⟨carries.known, carries.visible, carries.format⟩
  have split := OptionNumber.pieces_iff.mpr ⟨rfl, carries.short, carries.nonempty⟩
  obtain ⟨pieces, single⟩ := OptionNumber.pieces_lawful accepted split
  rw [← spliced_inserts lawful]
  refine lawful.spliced n _ false pieces fun once => ?_
  have absent := free.resolve_left (by simp [once])
  rw [if_neg (by decide), optionsAt_none absent]
  simpa [occurrences] using single once

theorem without_of_absent (absent : ∀ o ∈ options, o.number ≠ n) : without n options = options := by
  rw [without, List.filter_eq_self]
  simpa using absent

theorem LawfulOptions.without (lawful : LawfulOptions options) (n : OptionNumber) :
    LawfulOptions (without n options) := by
  rw [← spliced_drops lawful]
  exact lawful.spliced n [] true (by simp) fun _ => Nat.zero_le _

/-! ## Sizes -/

theorem encodeOptions_cons_length (current : Nat) (o : VisibleOption) (rest : List VisibleOption) :
    (encodeOptions current (o :: rest)).length =
      measureFenceposts current o.number o.value.length + measureOption o.value.length +
        (encodeOptions o.number rest).length := by
  simp only [encodeOptions, List.length_append, encodeOption_length, measureFenceposts_eq]

/-- The option table ends within reach of the first fencepost, so no neighbours need two. -/
theorem measureFenceposts_le_one (current : Nat) {target : Nat} (small : target ≤ largestOption)
    (length : Nat) : measureFenceposts current target length ≤ 1 := by
  rw [measureFenceposts]
  split
  · next far =>
    rw [← Bool.not_eq_false, needsFencepost_eq_false] at far
    unfold largestOption at small
    have fence : current + fencepostDelta current = 14 := by
      unfold fencepostDelta fencepostStep
      omega
    have near : needsFencepost (target - 14) length = false := by
      rw [needsFencepost_eq_false]
      omega
    rw [fence, measureFenceposts, dif_neg (by simp [near])]
    decide
  · exact Nat.zero_le _

theorem encodeOptions_start {options : List VisibleOption}
    (small : ∀ o ∈ options, o.number ≤ largestOption) (current other : Nat) :
    (encodeOptions current options).length ≤ (encodeOptions other options).length + 1 := by
  cases options with
  | nil => exact Nat.zero_le _
  | cons o rest =>
    rw [encodeOptions_cons_length, encodeOptions_cons_length]
    have := measureFenceposts_le_one current (small o (List.mem_cons_self ..))
      o.value.length
    omega

/-- Dropping options never takes more room: a fencepost that becomes necessary is no longer
than what it stands for. -/
theorem encodeOptions_sublist {some all : List VisibleOption} (sublist : some.Sublist all)
    (small : ∀ o ∈ all, o.number ≤ largestOption) (current : Nat) :
    (encodeOptions current some).length ≤ (encodeOptions current all).length := by
  induction sublist generalizing current with
  | slnil => exact Nat.le_refl _
  | cons o sublist ih =>
    have later := fun x member => small x (List.mem_cons_of_mem o member)
    have kept := ih later current
    have moved := encodeOptions_start later current o.number
    have header : 1 ≤ measureOption o.value.length := by
      unfold measureOption
      split <;> omega
    rw [encodeOptions_cons_length]
    omega
  | cons_cons o sublist ih =>
    have later := fun x member => small x (List.mem_cons_of_mem o member)
    have kept := ih later o.number
    rw [encodeOptions_cons_length, encodeOptions_cons_length]
    omega

theorem LawfulOptions.small (lawful : LawfulOptions options) :
    ∀ o ∈ options, o.number ≤ largestOption := fun o member =>
  known_le_largestOption (lawful.lawful o member).known

end

/-! ## Edits -/

namespace Packet

variable {capacity : Nat} {p q : Packet capacity} {n : OptionNumber} {v : OptionValue}

theorem Canonical.addOption_iff (h : p.Canonical) : p.addOption n v = .ok q ↔
    (n.Carries v ∧ (n.repeatable = true ∨ ∀ o ∈ p.options, o.number ≠ n) ∧
      (encodeOptions 0 (insertAfter n (occurrences n (n.written v)) p.options)).length ≤
        p.payloadStart) ∧
    q = p.withOptions (insertAfter n (occurrences n (n.written v)) p.options) := by
  have start := h.payloadStart_eq
  constructor
  · intro added
    obtain ⟨accepted, free, pieces, split, spliced⟩ := addOption_ok added
    obtain ⟨known, visible, format⟩ := OptionNumber.accepts_iff.mp accepted
    obtain ⟨rfl, short, nonempty⟩ := OptionNumber.pieces_iff.mp split
    have absent := (h.unset_iff known visible).mp
    rw [h.splice_eq, spliced_inserts h.lawful] at spliced
    split at spliced
    · next fits =>
      cases spliced
      exact ⟨⟨⟨known, visible, format, short, nonempty⟩, free.imp_right absent, by omega⟩, rfl⟩
    · cases spliced
  · rintro ⟨⟨carries, free, fits⟩, rfl⟩
    have accepted := OptionNumber.accepts_iff.mpr ⟨carries.known, carries.visible, carries.format⟩
    have split := OptionNumber.pieces_iff.mpr ⟨rfl, carries.short, carries.nonempty⟩
    have unset : (!n.repeatable && p.isSet n) = false := by
      rcases free with repeats | absent
      · simp [repeats]
      · simp [(h.unset_iff carries.known carries.visible).mpr absent]
    simp only [addOption_eq, accepted, split, unset, bind, Except.bind, Bool.false_eq_true,
      if_false]
    rw [h.splice_eq, spliced_inserts h.lawful, if_pos (by omega)]

theorem Canonical.removeOption_eq (h : p.Canonical) (known : n.known = true)
    (visible : isFencepost n = false) :
    p.removeOption n = .ok (p.withOptions (without n p.options)) := by
  rw [Packet.removeOption_eq, if_neg (by simp [known, visible])]
  cases set : p.isSet n with
  | false =>
    have absent := (h.unset_iff known visible).mp set
    rw [without_of_absent absent, h.withOptions_self]
    rfl
  | true =>
    have room := h.room
    have fewer : (without n p.options).Sublist p.options := List.filter_sublist
    have less := encodeOptions_sublist fewer h.lawful.small 0
    rw [h.region] at room
    rw [if_neg (by decide), h.splice_eq, spliced_drops h.lawful, if_pos (by omega)]

theorem removeOption_usable (removed : p.removeOption n = .ok q) :
    n.known = true ∧ isFencepost n = false := by
  rw [removeOption_eq] at removed
  split at removed
  · cases removed
  · next usable => simpa using usable

theorem Canonical.setOption_iff (h : p.Canonical) : p.setOption n v = .ok q ↔
    (n.Carries v ∧
      (encodeOptions 0 (insertAfter n (occurrences n (n.written v)) (without n p.options))).length ≤
        p.payloadStart) ∧
    q = p.withOptions (insertAfter n (occurrences n (n.written v)) (without n p.options)) := by
  have kept := p.withOptions_options _ (h.lawful.without n)
  have absent : ∀ o ∈ without n p.options, o.number ≠ n := by simp [without]
  constructor
  · intro done
    obtain ⟨between, removed, added⟩ := setOption_ok done
    have canonical := h.removeOption removed
    obtain ⟨known, visible⟩ := removeOption_usable removed
    rw [h.removeOption_eq known visible] at removed
    cases removed
    obtain ⟨⟨carries, -, fits⟩, rfl⟩ := canonical.addOption_iff.mp added
    rw [kept] at fits
    exact ⟨⟨carries, fits⟩, by rw [kept, withOptions_withOptions]⟩
  · rintro ⟨⟨carries, fits⟩, rfl⟩
    have removed := h.removeOption_eq carries.known carries.visible
    have canonical := h.removeOption removed
    simp only [setOption_eq, removed, bind, Except.bind]
    rw [canonical.addOption_iff, kept, withOptions_withOptions]
    exact ⟨⟨carries, .inr absent, fits⟩, rfl⟩

/-- The packets differ at most in their options. -/
structure SharesRest (p q : Packet capacity) : Prop where
  version : q.version = p.version
  kind : q.kind = p.kind
  code : q.code = p.code
  id : q.id = p.id
  payload : q.payload = p.payload
  fault : q.fault = p.fault

/-- The edit gives the packet this list of options when that is allowed, and leaves the whole
packet as it is when not. -/
structure Refines (p : Packet capacity) (e : Edit capacity) (allowed : Prop)
    (result : List VisibleOption) : Prop where
  done : allowed → ∃ q, p.attempt e = (q, .ok ()) ∧ q.options = result ∧ p.SharesRest q
  failed : ¬ allowed → ∃ cause, p.attempt e = (p, .error cause)

theorem refines_of_iff {e : Edit capacity} {allowed : Prop} {result : List VisibleOption}
    (atomic : e.Atomic) (lawful : allowed → LawfulOptions result)
    (iff : ∀ q, p.edited e = .ok q ↔ allowed ∧ q = p.withOptions result) :
    p.Refines e allowed result where
  done := fun holds => by
    have done := (iff _).mpr ⟨holds, rfl⟩
    exact ⟨p.withOptions result, edited_eq_ok.mp done, p.withOptions_options _ (lawful holds),
      ⟨rfl, rfl, rfl, rfl, rfl, rfl⟩⟩
  failed := fun fails => by
    cases outcome : p.edited e with
    | ok q => exact absurd ((iff q).mp outcome).1 fails
    | error cause => exact ⟨cause, attempt_of_edited_error atomic outcome⟩

/-- Adding, removing and replacing an option do to the list of a packet's options what their
names say, exactly when the value suits the option and the new list has room. -/
theorem edits_refine_list (capacity : Nat) (edits : List PacketEdit) (n : OptionNumber)
    (v : OptionValue) :
    let p := reach capacity edits
    let new := occurrences n (n.written v)
    let fits := fun options => (encodeOptions 0 options).length ≤ p.payloadStart
    p.Refines (.addOption n v)
        (n.Carries v ∧ (n.repeatable = true ∨ ∀ o ∈ p.options, o.number ≠ n) ∧
          fits (insertAfter n new p.options))
        (insertAfter n new p.options) ∧
      p.Refines (.removeOption n) (n.known = true ∧ isFencepost n = false)
        (without n p.options) ∧
      p.Refines (.setOption n v) (n.Carries v ∧ fits (insertAfter n new (without n p.options)))
        (insertAfter n new (without n p.options)) ∧
      ∀ q, p.setOption n v = .ok q ↔
        ∃ between, p.removeOption n = .ok between ∧ between.addOption n v = .ok q := by
  intro p new fits
  have h := reach_canonical capacity edits
  refine ⟨refines_of_iff (Edit.addOption_atomic n v) ?_ fun q => h.addOption_iff,
    refines_of_iff (Edit.removeOption_atomic n) ?_ ?_,
    refines_of_iff (Edit.setOption_atomic n v) ?_ fun q => h.setOption_iff,
    fun q => ⟨setOption_ok, ?_⟩⟩
  · rintro ⟨carries, free, -⟩
    exact h.lawful.inserts carries free
  · intro _
    exact h.lawful.without n
  · intro q
    constructor
    · intro removed
      obtain ⟨known, visible⟩ := removeOption_usable removed
      exact ⟨⟨known, visible⟩, Except.ok.inj (removed.symm.trans (h.removeOption_eq known visible))⟩
    · rintro ⟨⟨known, visible⟩, rfl⟩
      exact h.removeOption_eq known visible
  · rintro ⟨carries, -⟩
    exact (h.lawful.without n).inserts carries (.inr (by simp [without]))
  · rintro ⟨between, removed, added⟩
    simp only [setOption_eq, removed, bind, Except.bind]
    exact added

/-- Replacing an option by a value that has no room keeps the one that was there; removing it
and adding the other would lose it. -/
example :
    let p := reach 4 [.addOption .entityTag (.bytes [1, 2])]
    let longer := OptionValue.bytes [1, 2, 3, 4]
    (p.attempt (.setOption .entityTag longer)).1.options = [⟨.entityTag, [1, 2]⟩] ∧
      (p.attempt (do Edit.removeOption .entityTag; Edit.addOption .entityTag longer)).1.options =
        [] := by
  decide +kernel

end Packet
end CoapNode
