import CoapNode.Proofs.Packet.RoundTrip
/-! What a datagram says, as a grammar over its bytes, and what reading makes of it. The
grammar knows nothing of packets: which options are refused and which are skipped is told
from the options before them in the datagram. -/
namespace CoapNode

/-- Bytes that begin with an option: its distance, its value and the bytes after it. -/
inductive Cuts : List UInt8 → Nat → List UInt8 → List UInt8 → Prop
  | short (header : UInt8) (value rest : List UInt8) (length : header.toNat % 16 = value.length)
      (plain : value.length ≠ 15) :
      Cuts (header :: (value ++ rest)) (header.toNat / 16) value rest
  | long (header extra : UInt8) (value rest : List UInt8) (escape : header.toNat % 16 = 15)
      (length : extra.toNat + 15 = value.length) :
      Cuts (header :: extra :: (value ++ rest)) (header.toNat / 16) value rest

/-- Bytes that begin with options after option `number`: as many as are stated, or as many
as there are before a marker. -/
inductive Lists : Option Nat → Nat → List UInt8 → List VisibleOption → List UInt8 → Prop
  | counted (number : Nat) (rest : List UInt8) : Lists (some 0) number rest [] rest
  | marked (number : Nat) (rest : List UInt8) : Lists none number (0xF0 :: rest) [] rest
  | stated {count number delta : Nat} {bytes value tail rest : List UInt8}
      {options : List VisibleOption} (first : Cuts bytes delta value tail)
      (later : Lists (some count) (min (number + delta) 65535) tail options rest) :
      Lists (some (count + 1)) number bytes (⟨min (number + delta) 65535, value⟩ :: options) rest
  | unstated {number delta : Nat} {bytes value tail rest : List UInt8}
      {options : List VisibleOption} (unmarked : bytes.head? ≠ some 0xF0)
      (first : Cuts bytes delta value tail)
      (later : Lists none (min (number + delta) 65535) tail options rest) :
      Lists none number bytes (⟨min (number + delta) 65535, value⟩ :: options) rest

/-- An option that is unknown, or one too many, or a text without a character. -/
def Exceptional (earlier : List VisibleOption) (o : VisibleOption) : Prop :=
  o.number.known = false ∨
    (o.number.repeatable = false ∧ ∃ e ∈ earlier, e.number = o.number) ∨
    (o.number.format = .text ∧ o.value = [])

instance (earlier : List VisibleOption) (o : VisibleOption) : Decidable (Exceptional earlier o) :=
  inferInstanceAs (Decidable (_ ∨ _))

/-- Exceptional options with odd numbers make a message unacceptable. -/
def Refused (earlier : List VisibleOption) (o : VisibleOption) : Prop :=
  o.number % 2 = 1 ∧ Exceptional earlier o

instance (earlier : List VisibleOption) (o : VisibleOption) : Decidable (Refused earlier o) :=
  inferInstanceAs (Decidable (_ ∧ _))

/-- Fenceposts, and exceptional options with even numbers, are passed over. -/
def Skipped (earlier : List VisibleOption) (o : VisibleOption) : Prop :=
  isFencepost o.number = true ∨ o.number % 2 = 0 ∧ Exceptional earlier o

instance (earlier : List VisibleOption) (o : VisibleOption) : Decidable (Skipped earlier o) :=
  inferInstanceAs (Decidable (_ ∨ _))

/-- The options that are not skipped, in order. -/
def keptOptions (earlier : List VisibleOption) : List VisibleOption → List VisibleOption
  | [] => []
  | o :: rest =>
    if Skipped earlier o then keptOptions (earlier ++ [o]) rest
    else o :: keptOptions (earlier ++ [o]) rest

/-- No option is refused, and none that is kept is longer than its number allows. -/
structure Passes (earlier options : List VisibleOption) : Prop where
  accepted : ∀ before o after, options = before ++ o :: after → ¬ Refused (earlier ++ before) o
  short : ∀ o ∈ keptOptions earlier options, o.value.length ≤ o.number.maxLength

/-- What a datagram says. -/
structure Transcript where
  kind : MessageKind
  code : Code
  id : MessageId
  options : List VisibleOption
  payload : List UInt8

/-- How many options a count states, if it is no more than a hint of a marker. -/
def statedOptions (count : Nat) : Option Nat := if count = 15 then none else some count

inductive Spells : List UInt8 → Transcript → Prop
  | datagram {first code high low : UInt8} {body : List UInt8} {t : Transcript}
      (version : first.toNat / 64 = 1) (kind : t.kind.number.toNat = first.toNat / 16 % 4)
      (category : t.code.category.toNat = code.toNat / 32)
      (detail : t.code.detail.toNat = code.toNat % 32)
      (id : t.id.val.toNat = high.toNat * 256 + low.toNat)
      (lists : Lists (statedOptions (first.toNat % 16)) 0 body t.options t.payload) :
      Spells (first :: code :: high :: low :: body) t

namespace Transcript

def kept (t : Transcript) : List VisibleOption := keptOptions [] t.options

/-- A receiver of this capacity takes the message. -/
structure Acceptable (capacity : Nat) (t : Transcript) : Prop where
  passes : Passes [] t.options
  room : (encodeOptions 0 t.kept).length + t.payload.length ≤ capacity

end Transcript

/-! ## Bytes -/

theorem high_nibble (b : UInt8) : (b >>> 4).toNat = b.toNat / 16 := by
  rw [UInt8.toNat_shiftRight]
  exact Nat.shiftRight_eq_div_pow _ _

theorem low_nibble (b : UInt8) : (b &&& 15).toNat = b.toNat % 16 := by
  rw [UInt8.toNat_and]
  exact Nat.and_two_pow_sub_one_eq_mod _ 4

theorem cut_iff {header : UInt8} {length delta : Nat} {body value rest : List UInt8} :
    RawOption.cut header length body = some ⟨delta, value, rest⟩ ↔
      header.toNat / 16 = delta ∧ body = value ++ rest ∧ length = value.length := by
  unfold RawOption.cut
  rw [high_nibble]
  split
  · next inside =>
    constructor
    · intro found
      cases found
      exact ⟨rfl, (List.take_append_drop _ _).symm, by simp [inside]⟩
    · rintro ⟨rfl, rfl, rfl⟩
      simp
  · next outside =>
    constructor
    · intro found
      cases found
    · rintro ⟨rfl, rfl, rfl⟩
      simp at outside

theorem cuts_iff {bytes : List UInt8} {delta : Nat} {value rest : List UInt8} :
    Cuts bytes delta value rest ↔ RawOption.read? bytes = some ⟨delta, value, rest⟩ := by
  constructor
  · intro cuts
    cases cuts with
    | short header value rest length plain =>
      simp only [RawOption.read?, low_nibble, length, longLength, if_neg plain]
      exact cut_iff.mpr ⟨rfl, rfl, rfl⟩
    | long header extra value rest escape length =>
      simp only [RawOption.read?, low_nibble, escape, longLength, if_true]
      exact cut_iff.mpr ⟨rfl, rfl, length⟩
  · intro read
    unfold RawOption.read? at read
    split at read
    · cases read
    · next header body =>
      rw [low_nibble] at read
      split at read
      · next escape =>
        split at read
        · cases read
        · next extra body =>
          obtain ⟨rfl, rfl, length⟩ := cut_iff.mp read
          exact .long header extra value rest escape length
      · next plain =>
        obtain ⟨rfl, rfl, length⟩ := cut_iff.mp read
        exact .short header value rest length fun long => plain (by rw [length, long]; rfl)

/-- Bytes list options in one way only. -/
theorem Lists.unique {remaining : Option Nat} {number : Nat} {bytes rest others : List UInt8}
    {options alike : List VisibleOption} (one : Lists remaining number bytes options rest)
    (other : Lists remaining number bytes alike others) : options = alike ∧ rest = others := by
  induction one generalizing alike others with
  | counted number rest => cases other; exact ⟨rfl, rfl⟩
  | marked number rest =>
    cases other with
    | marked => exact ⟨rfl, rfl⟩
    | unstated unmarked => exact absurd rfl unmarked
  | stated first later ih =>
    cases other with
    | stated again tail =>
      rw [cuts_iff] at first again
      rw [first] at again
      cases again
      obtain ⟨rfl, rfl⟩ := ih tail
      exact ⟨rfl, rfl⟩
  | unstated unmarked first later ih =>
    cases other with
    | marked => exact absurd rfl unmarked
    | unstated _ again tail =>
      rw [cuts_iff] at first again
      rw [first] at again
      cases again
      obtain ⟨rfl, rfl⟩ := ih tail
      exact ⟨rfl, rfl⟩

/-! ## Headers and transcripts -/

theorem firstByte_fields (first : UInt8) (kind : MessageKind) :
    (first >>> 6 = protocolVersion ↔ first.toNat / 64 = 1) ∧
      (MessageKind.ofNumber? ((first >>> 4) &&& 3) = .ok kind ↔
        kind.number.toNat = first.toNat / 16 % 4) := by
  have table : ∀ n : Fin 256, ∀ k ∈ [MessageKind.confirmable, .nonConfirmable, .acknowledgement,
      .reset], (UInt8.ofNat n.val >>> 6 = protocolVersion ↔ n.val / 64 = 1) ∧
        (MessageKind.ofNumber? ((UInt8.ofNat n.val >>> 4) &&& 3) = .ok k ↔
          k.number.toNat = n.val / 16 % 4) := by
    decide +kernel
  simpa using table ⟨first.toNat, first.toNat_lt⟩ kind (by cases kind <;> decide)

theorem code_fields (b : UInt8) (code : Code) :
    Code.ofByte b = code ↔
      code.category.toNat = b.toNat / 32 ∧ code.detail.toNat = b.toNat % 32 := by
  have high : (b >>> 5).toNat = b.toNat / 32 := by
    rw [UInt8.toNat_shiftRight]
    exact Nat.shiftRight_eq_div_pow _ _
  have low : (b &&& 31).toNat = b.toNat % 32 := by
    rw [UInt8.toNat_and]
    exact Nat.and_two_pow_sub_one_eq_mod _ 5
  obtain ⟨category, detail⟩ := code
  simp only [Code.ofByte, Code.mk.injEq, ← UInt8.toNat_inj, high, low]
  exact ⟨fun h => ⟨h.1.symm, h.2.symm⟩, fun h => ⟨h.1.symm, h.2.symm⟩⟩

theorem id_fields (high low : UInt8) (id : MessageId) :
    MessageId.ofBytes high low = id ↔ id.val.toNat = high.toNat * 256 + low.toNat := by
  rw [← messageId_ofBytes_toNat, UInt16.toNat_inj]
  constructor
  · rintro rfl
    rfl
  · intro same
    exact congrArg MessageId.mk same.symm

theorem Spells.unique {bytes : List UInt8} {t u : Transcript} (one : Spells bytes t)
    (other : Spells bytes u) : t = u := by
  cases one with
  | datagram _ kind category detail id lists =>
    cases other with
    | datagram _ kind' category' detail' id' lists' =>
      have sort := (firstByte_fields _ _).2.mpr kind
      have code := (code_fields _ _).mpr ⟨category, detail⟩
      have number := (id_fields _ _ _).mpr id
      rw [(firstByte_fields _ _).2.mpr kind'] at sort
      rw [(code_fields _ _).mpr ⟨category', detail'⟩] at code
      rw [(id_fields _ _ _).mpr id'] at number
      obtain ⟨options, payload⟩ := lists.unique lists'
      cases t
      cases u
      cases sort
      simp_all

/-! ## Lists of options -/

section

variable {earlier : List VisibleOption}

theorem plain_of_kept {o : VisibleOption} (kept : ¬ Skipped earlier o)
    (accepted : ¬ Refused earlier o) :
    isFencepost o.number = false ∧ ¬ Exceptional earlier o := by
  simp only [Skipped, not_or, not_and, Bool.not_eq_true] at kept
  refine ⟨kept.1, fun exceptional => ?_⟩
  rcases Nat.mod_two_eq_zero_or_one o.number with even | odd
  · exact kept.2 even exceptional
  · exact accepted ⟨odd, exceptional⟩

theorem keptOptions_skipped {o : VisibleOption} (rest : List VisibleOption)
    (skipped : Skipped earlier o) :
    keptOptions earlier (o :: rest) = keptOptions (earlier ++ [o]) rest := if_pos skipped

theorem keptOptions_kept {o : VisibleOption} (rest : List VisibleOption)
    (kept : ¬ Skipped earlier o) :
    keptOptions earlier (o :: rest) = o :: keptOptions (earlier ++ [o]) rest := if_neg kept

theorem passes_nil (earlier : List VisibleOption) : Passes earlier [] :=
  ⟨by simp, by simp [keptOptions]⟩

theorem passes_cons {o : VisibleOption} {rest : List VisibleOption} :
    Passes earlier (o :: rest) ↔
      ¬ Refused earlier o ∧ (¬ Skipped earlier o → o.value.length ≤ o.number.maxLength) ∧
        Passes (earlier ++ [o]) rest := by
  constructor
  · intro passes
    refine ⟨by simpa using passes.accepted [] o rest rfl, fun kept => ?_, ?_, fun x member => ?_⟩
    · exact passes.short o (by rw [keptOptions_kept rest kept]; exact List.mem_cons_self ..)
    · rintro before x after rfl
      simpa using passes.accepted (o :: before) x after rfl
    · apply passes.short x
      by_cases skipped : Skipped earlier o
      · rwa [keptOptions_skipped rest skipped]
      · rw [keptOptions_kept rest skipped]
        exact List.mem_cons_of_mem _ member
  · rintro ⟨accepted, short, tail⟩
    refine ⟨fun before x after whole => ?_, fun x member => ?_⟩
    · cases before with
      | nil =>
        cases whole
        simpa using accepted
      | cons y before =>
        cases whole
        simpa using tail.accepted before x after rfl
    · by_cases skipped : Skipped earlier o
      · rw [keptOptions_skipped rest skipped] at member
        exact tail.short x member
      · rw [keptOptions_kept rest skipped] at member
        rcases List.mem_cons.mp member with rfl | later
        · exact short skipped
        · exact tail.short x later

theorem keptOptions_cons (earlier : List VisibleOption) (o : VisibleOption)
    (rest : List VisibleOption) :
    keptOptions earlier (o :: rest) =
      (if Skipped earlier o then [] else [o]) ++ keptOptions (earlier ++ [o]) rest := by
  by_cases skipped : Skipped earlier o
  · rw [keptOptions_skipped rest skipped, if_pos skipped, List.nil_append]
  · rw [keptOptions_kept rest skipped, if_neg skipped]
    rfl

theorem le_advanceNumber {number : Nat} (delta : Nat) (small : number ≤ 65535) :
    number ≤ advanceNumber number delta ∧ advanceNumber number delta ≤ 65535 := by
  unfold advanceNumber
  omega

theorem Lists.next {remaining : Option Nat} {number delta : Nat}
    {bytes value tail rest : List UInt8} {options : List VisibleOption} (more : remaining ≠ some 0)
    (unmarked : remaining = none → bytes.head? ≠ some endOfOptions)
    (first : Cuts bytes delta value tail)
    (later : Lists (remaining.map (· - 1)) (advanceNumber number delta) tail options rest) :
    Lists remaining number bytes (⟨advanceNumber number delta, value⟩ :: options) rest := by
  cases remaining with
  | none => exact .unstated (unmarked rfl) first later
  | some count =>
    cases count with
    | zero => exact absurd rfl more
    | succ count => exact .stated first later

end

/-! ## One option -/

theorem critical_eq_true {n : OptionNumber} : n.critical = true ↔ n % 2 = 1 := by
  simp [OptionNumber.critical]

/-- No option that may occur once and is not critical holds text. -/
theorem elective_single_text (n : OptionNumber) (known : n.known = true) (even : n % 2 = 0)
    (once : n.repeatable = false) : n.format ≠ .text := by
  have table : ∀ n : Fin (largestOption + 1), n.val % 2 = 0 →
      OptionNumber.repeatable n.val = false → OptionNumber.format n.val ≠ .text := by decide
  exact table ⟨n, Nat.lt_succ_of_le (known_le_largestOption known)⟩ even once

theorem fencepost_even {n : Nat} (fence : isFencepost n = true) : n % 2 = 0 := by
  simp only [isFencepost, fencepostStep, Bool.and_eq_true, beq_iff_eq] at fence
  omega

namespace Packet

variable {capacity : Nat} {p : Packet capacity} {earlier : List VisibleOption} {number : Nat}

/-- The packet after the options read so far, of which the last has this number. -/
structure Tracks (p : Packet capacity) (earlier : List VisibleOption) (number : Nat) : Prop where
  canonical : p.Canonical
  stored : ∀ o ∈ p.options, o ∈ earlier
  least : ∀ e ∈ earlier, e.number ≤ number
  once : ∀ n : OptionNumber, n.known = true → isFencepost n = false → n.repeatable = false →
    (∃ e ∈ earlier, e.number = n) → ∃ o ∈ p.options, o.number = n

theorem Tracks.isSet_iff (t : p.Tracks earlier number) {n : OptionNumber}
    (known : n.known = true) (visible : isFencepost n = false) (once : n.repeatable = false) :
    p.isSet n = true ↔ ∃ e ∈ earlier, e.number = n := by
  rw [t.canonical.isSet_iff known visible]
  constructor
  · rintro ⟨o, member, same⟩
    exact ⟨o, t.stored o member, same⟩
  · exact t.once n known visible once

theorem Tracks.again_iff (t : p.Tracks earlier number) {n : OptionNumber}
    (known : n.known = true) (visible : isFencepost n = false) :
    (!n.repeatable && p.isSet n) = true ↔
      n.repeatable = false ∧ ∃ e ∈ earlier, e.number = n := by
  cases once : n.repeatable with
  | true => simp
  | false => simpa using t.isSet_iff known visible once

theorem Tracks.lawful (t : p.Tracks earlier number) {o : VisibleOption} (next : number ≤ o.number)
    (visible : isFencepost o.number = false) (plain : ¬ Exceptional earlier o)
    (short : o.value.length ≤ o.number.maxLength) : LawfulOptions (p.options ++ [o]) := by
  simp only [Exceptional, not_or, not_and, Bool.not_eq_false] at plain
  obtain ⟨known, single, written⟩ := plain
  refine ⟨?_, ?_, fun n once => ?_⟩
  · rw [List.pairwise_append]
    refine ⟨t.canonical.lawful.sorted, List.pairwise_singleton _ _, fun a stored b last => ?_⟩
    rw [List.mem_singleton.mp last]
    exact Nat.le_trans (t.least a (t.stored a stored)) next
  · intro x member
    rcases List.mem_append.mp member with old | new
    · exact t.canonical.lawful.lawful x old
    · rw [List.mem_singleton.mp new]
      exact ⟨known, visible, short, written⟩
  · rw [optionsAt_append, List.length_append]
    by_cases same : o.number = n
    · have none : optionsAt n p.options = [] := optionsAt_none fun x member again =>
        single (same ▸ once) ⟨x, t.stored x member, again.trans same.symm⟩
      rw [none, List.length_nil, Nat.zero_add]
      exact List.length_filter_le _ _
    · have other : optionsAt n [o] = [] := optionsAt_none fun x member again =>
        same (List.mem_singleton.mp member ▸ again)
      rw [other]
      exact t.canonical.lawful.single n once

theorem Tracks.acceptOption_exceptional (t : p.Tracks earlier number) {o : VisibleOption}
    (visible : isFencepost o.number = false) (exceptional : Exceptional earlier o) :
    ∃ r, p.acceptOption o.number o.value = if o.number.critical then .error r else .ok p := by
  rw [Packet.acceptOption, if_neg (by simp [visible])]
  cases known : o.number.known with
  | false => exact ⟨_, if_pos rfl⟩
  | true =>
    rw [if_neg (by decide)]
    by_cases again : (!o.number.repeatable && p.isSet o.number) = true
    · exact ⟨_, if_pos again⟩
    · rw [if_neg again]
      have empty : (o.number.format == .text && o.value.isEmpty) = true := by
        rcases exceptional with unknown | repeated | empty
        · rw [known] at unknown
          cases unknown
        · exact absurd ((t.again_iff known visible).mpr repeated) again
        · simp [empty.1, empty.2]
      exact ⟨_, if_pos empty⟩

theorem Tracks.acceptOption_skipped (t : p.Tracks earlier number) {o : VisibleOption}
    (skipped : Skipped earlier o) : p.acceptOption o.number o.value = .ok p := by
  cases fence : isFencepost o.number with
  | true => rw [Packet.acceptOption, if_pos fence]
  | false =>
    rcases skipped with post | ⟨even, exceptional⟩
    · rw [fence] at post
      cases post
    · obtain ⟨r, accepted⟩ := t.acceptOption_exceptional fence exceptional
      rw [accepted, if_neg (by rw [critical_eq_true]; lia)]

theorem Tracks.acceptOption_refused (t : p.Tracks earlier number) {o : VisibleOption}
    (refused : Refused earlier o) : ∃ r, p.acceptOption o.number o.value = .error r := by
  have visible : isFencepost o.number = false := by
    rw [← Bool.not_eq_true]
    intro fence
    have := fencepost_even fence
    have := refused.1
    lia
  obtain ⟨r, accepted⟩ := t.acceptOption_exceptional visible refused.2
  exact ⟨r, by rw [accepted, if_pos (critical_eq_true.mpr refused.1)]⟩

theorem Tracks.acceptOption_long (t : p.Tracks earlier number) {o : VisibleOption}
    (visible : isFencepost o.number = false) (plain : ¬ Exceptional earlier o)
    (long : o.number.maxLength < o.value.length) :
    p.acceptOption o.number o.value = .error (p.badOption .valueTooLong o.number) := by
  simp only [Exceptional, not_or, not_and, Bool.not_eq_false] at plain
  obtain ⟨known, single, written⟩ := plain
  have first : ¬ (!o.number.repeatable && p.isSet o.number) = true := fun again =>
    let ⟨once, came⟩ := (t.again_iff known visible).mp again
    single once came
  have text : ¬ (o.number.format == .text && o.value.isEmpty) = true := fun empty => by
    simp only [Bool.and_eq_true, beq_iff_eq, List.isEmpty_iff] at empty
    exact written empty.1 empty.2
  rw [Packet.acceptOption, if_neg (by simp [visible]), if_neg (by simp [known]), if_neg first,
    if_neg text, if_pos long]

theorem Tracks.skip (t : p.Tracks earlier number) {o : VisibleOption} (next : number ≤ o.number)
    (skipped : Skipped earlier o) : p.Tracks (earlier ++ [o]) o.number where
  canonical := t.canonical
  stored := fun x member => List.mem_append_left _ (t.stored x member)
  least := fun e member => by
    rcases List.mem_append.mp member with old | new
    · exact Nat.le_trans (t.least e old) next
    · rw [List.mem_singleton.mp new]
  once := fun n known visible once came => by
    obtain ⟨e, member, rfl⟩ := came
    rcases List.mem_append.mp member with old | new
    · exact t.once _ known visible once ⟨e, old, rfl⟩
    · rw [List.mem_singleton.mp new] at known visible once ⊢
      rcases skipped with fence | ⟨even, unknown | repeated | empty⟩
      · rw [visible] at fence
        cases fence
      · rw [known] at unknown
        cases unknown
      · exact t.once _ known visible once repeated.2
      · exact absurd empty.1 (elective_single_text _ known even once)

theorem Tracks.keep (t : p.Tracks earlier number) {o : VisibleOption} (next : number ≤ o.number)
    (lawful : LawfulOptions (p.options ++ [o]))
    (room : (encodeOptions 0 (p.options ++ [o])).length + p.payload.length ≤ capacity) :
    (p.withOptions (p.options ++ [o])).Tracks (earlier ++ [o]) o.number where
  canonical := p.withOptions_canonical _ lawful room
  stored := fun x member => by
    rw [p.withOptions_options _ lawful] at member
    rcases List.mem_append.mp member with old | new
    · exact List.mem_append_left _ (t.stored x old)
    · exact List.mem_append_right _ new
  least := fun e member => by
    rcases List.mem_append.mp member with old | new
    · exact Nat.le_trans (t.least e old) next
    · rw [List.mem_singleton.mp new]
  once := fun n known visible once came => by
    rw [p.withOptions_options _ lawful]
    obtain ⟨e, member, rfl⟩ := came
    rcases List.mem_append.mp member with old | new
    · obtain ⟨x, stored, same⟩ := t.once _ known visible once ⟨e, old, rfl⟩
      exact ⟨x, List.mem_append_left _ stored, same⟩
    · exact ⟨e, List.mem_append_right _ new, rfl⟩

/-! ## Every option in turn -/

/-- What reading one option amounts to. -/
theorem Tracks.acceptOption_ok (t : p.Tracks earlier number) {o : VisibleOption}
    (next : number ≤ o.number) {q : Packet capacity}
    (accepted : p.acceptOption o.number o.value = .ok q) :
    ¬ Refused earlier o ∧ (¬ Skipped earlier o → o.value.length ≤ o.number.maxLength) ∧
      q.Tracks (earlier ++ [o]) o.number ∧
      q.options = p.options ++ (if Skipped earlier o then [] else [o]) ∧
      q = p.withOptions (p.options ++ if Skipped earlier o then [] else [o]) := by
  have acceptable : ¬ Refused earlier o := by
    intro refused
    obtain ⟨r, error⟩ := t.acceptOption_refused refused
    rw [error] at accepted
    cases accepted
  by_cases skipped : Skipped earlier o
  · rw [t.acceptOption_skipped skipped] at accepted
    cases accepted
    rw [if_pos skipped, List.append_nil, t.canonical.withOptions_self]
    exact ⟨acceptable, absurd skipped, t.skip next skipped, rfl, rfl⟩
  · obtain ⟨visible, plain⟩ := plain_of_kept skipped acceptable
    have short : o.value.length ≤ o.number.maxLength := by
      refine Nat.le_of_not_lt fun long => ?_
      rw [t.acceptOption_long visible plain long] at accepted
      cases accepted
    have lawful := t.lawful next visible plain short
    rw [t.canonical.acceptOption_last o lawful] at accepted
    split at accepted
    · next room =>
      cases accepted
      rw [if_neg skipped]
      exact ⟨acceptable, fun _ => short, t.keep next lawful room,
        p.withOptions_options _ lawful, rfl⟩
    · cases accepted

theorem Tracks.acceptOption_eq (t : p.Tracks earlier number) {o : VisibleOption}
    (next : number ≤ o.number) (acceptable : ¬ Refused earlier o)
    (short : ¬ Skipped earlier o → o.value.length ≤ o.number.maxLength)
    (room : (encodeOptions 0 (p.options ++ if Skipped earlier o then [] else [o])).length +
      p.payload.length ≤ capacity) :
    p.acceptOption o.number o.value =
      .ok (p.withOptions (p.options ++ if Skipped earlier o then [] else [o])) := by
  by_cases skipped : Skipped earlier o
  · rw [t.acceptOption_skipped skipped, if_pos skipped, List.append_nil,
      t.canonical.withOptions_self]
  · rw [if_neg skipped] at room ⊢
    obtain ⟨visible, plain⟩ := plain_of_kept skipped acceptable
    have lawful := t.lawful next visible plain (short skipped)
    rw [t.canonical.acceptOption_last o lawful, if_pos room]

/-- What reading takes, the grammar lists, and the options it keeps are stored. -/
theorem acceptOptions_sound {remaining : Option Nat} {bytes rest : List UInt8}
    {q : Packet capacity} (t : p.Tracks earlier number) (small : number ≤ 65535)
    (accepted : p.acceptOptions remaining number bytes = .ok (q, rest)) :
    ∃ options, Lists remaining number bytes options rest ∧ Passes earlier options ∧
      LawfulOptions (p.options ++ keptOptions earlier options) ∧
      q = p.withOptions (p.options ++ keptOptions earlier options) := by
  fun_induction Packet.acceptOptions p remaining number bytes generalizing earlier with
  | case1 p number bytes =>
    cases accepted
    refine ⟨[], .counted number rest, passes_nil earlier, ?_⟩
    rw [keptOptions, List.append_nil, t.canonical.withOptions_self]
    exact ⟨t.canonical.lawful, rfl⟩
  | case2 p remaining number bytes more marked =>
    cases accepted
    obtain ⟨rfl, marker⟩ := marked
    obtain ⟨tail, rfl⟩ : ∃ tail, bytes = endOfOptions :: tail := by
      cases bytes with
      | nil => cases marker
      | cons b tail => exact ⟨tail, by rw [Option.some.inj marker]⟩
    refine ⟨[], .marked number tail, passes_nil earlier, ?_⟩
    rw [keptOptions, List.append_nil, t.canonical.withOptions_self]
    exact ⟨t.canonical.lawful, rfl⟩
  | case3 => cases accepted
  | case4 => cases accepted
  | case5 p remaining number bytes more unmarked o read next taken ih =>
    obtain ⟨ascends, bounded⟩ := le_advanceNumber o.delta small
    obtain ⟨acceptable, short, tracks, stored, same⟩ :=
      t.acceptOption_ok (o := ⟨advanceNumber number o.delta, o.value⟩) ascends taken
    obtain ⟨options, lists, passes, lawful, final⟩ := ih tracks bounded accepted
    rw [stored, List.append_assoc, ← keptOptions_cons] at lawful final
    refine ⟨⟨advanceNumber number o.delta, o.value⟩ :: options, ?_,
      passes_cons.mpr ⟨acceptable, short, passes⟩, lawful, ?_⟩
    · exact .next more (fun none marker => unmarked ⟨none, marker⟩) (cuts_iff.mpr read) lists
    · rw [final, same, withOptions_withOptions]

/-- The room that the kept options need is room for the first of them, since an encoding
only grows at its end. -/
theorem Tracks.acceptOptions_next (t : p.Tracks earlier number) (remaining : Option Nat)
    {delta : Nat} {bytes value tail : List UInt8} {options : List VisibleOption}
    (small : number ≤ 65535) (more : remaining ≠ some 0)
    (unmarked : remaining = none → bytes.head? ≠ some endOfOptions)
    (first : Cuts bytes delta value tail) :
    let o : VisibleOption := ⟨advanceNumber number delta, value⟩
    Passes earlier (o :: options) →
    (encodeOptions 0 (p.options ++ keptOptions earlier (o :: options))).length +
      p.payload.length ≤ capacity →
    ∃ q : Packet capacity, q.Tracks (earlier ++ [o]) o.number ∧
      (encodeOptions 0 (q.options ++ keptOptions (earlier ++ [o]) options)).length +
        q.payload.length ≤ capacity ∧
      p.acceptOptions remaining number bytes =
        q.acceptOptions (remaining.map (· - 1)) o.number tail := by
  intro o passes room
  obtain ⟨acceptable, short, -⟩ := passes_cons.mp passes
  rw [keptOptions_cons, ← List.append_assoc] at room
  have now : (encodeOptions 0 (p.options ++ if Skipped earlier o then [] else [o])).length +
      p.payload.length ≤ capacity := by
    rw [encodeOptions_append, List.length_append] at room
    omega
  have ascends := (le_advanceNumber delta small).1
  have taken := t.acceptOption_eq (o := o) ascends acceptable short now
  obtain ⟨-, -, tracks, stored, -⟩ := t.acceptOption_ok ascends taken
  refine ⟨_, tracks, ?_, acceptOptions_taken more unmarked (cuts_iff.mp first) taken⟩
  rwa [stored]

theorem acceptOptions_complete {remaining : Option Nat} {bytes rest : List UInt8}
    {options : List VisibleOption} (t : p.Tracks earlier number) (small : number ≤ 65535)
    (lists : Lists remaining number bytes options rest) (passes : Passes earlier options)
    (room : (encodeOptions 0 (p.options ++ keptOptions earlier options)).length +
      p.payload.length ≤ capacity) :
    ∃ q, p.acceptOptions remaining number bytes = .ok (q, rest) := by
  induction lists generalizing p earlier with
  | counted number rest => exact ⟨p, by rw [Packet.acceptOptions, if_pos rfl]⟩
  | marked number rest =>
    refine ⟨p, ?_⟩
    rw [Packet.acceptOptions, if_neg (by simp), if_pos ⟨rfl, rfl⟩]
    rfl
  | @stated count number delta bytes value tail rest options first later ih =>
    obtain ⟨q, tracks, enough, same⟩ :=
      t.acceptOptions_next (some (count + 1)) small (by simp) (by simp) first passes room
    rw [same]
    exact ih tracks (le_advanceNumber delta small).2 (passes_cons.mp passes).2.2 enough
  | @unstated number delta bytes value tail rest options unmarked first later ih =>
    obtain ⟨q, tracks, enough, same⟩ :=
      t.acceptOptions_next none small (by simp) (fun _ => unmarked) first passes room
    rw [same]
    exact ih tracks (le_advanceNumber delta small).2 (passes_cons.mp passes).2.2 enough

/-! ## The whole datagram -/

section

variable (kind : MessageKind) (code : Code) (id : MessageId)

theorem headerOnly_tracks (capacity : Nat) : (headerOnly capacity kind code id).Tracks [] 0 where
  canonical := headerOnly_canonical capacity kind code id
  stored := by simp [headerOnly_options]
  least := by simp
  once := by simp

theorem readContent_sound {remaining : Option Nat} {body : List UInt8}
    (read : (headerOnly capacity kind code id).readContent remaining body = .ok p) :
    ∃ options rest, Lists remaining 0 body options rest ∧ Passes [] options ∧
      (encodeOptions 0 (keptOptions [] options)).length + rest.length ≤ capacity ∧
      p.kind = kind ∧ p.code = code ∧ p.id = id ∧ p.options = keptOptions [] options ∧
      p.payload = rest := by
  have none := headerOnly_options capacity kind code id
  unfold readContent at read
  split at read
  · cases read
  · next q rest accepted =>
    obtain ⟨options, lists, passes, lawful, same⟩ :=
      acceptOptions_sound (headerOnly_tracks kind code id capacity) (Nat.zero_le _) accepted
    rw [none, List.nil_append] at same lawful
    have shown : q.options = keptOptions [] options := by
      rw [same, withOptions_options _ _ lawful]
    rw [store_setPayload, setPayload_eq] at read
    split at read
    · next done =>
      split at done
      · cases done
      · next fits =>
        cases done
        cases read
        rw [same] at fits
        refine ⟨options, rest, lists, passes, Nat.le_of_not_lt fits, ?_, ?_, ?_, shown, rfl⟩
        all_goals rw [same]; rfl
    · cases read

theorem acceptOptions_kept (capacity : Nat) {remaining : Option Nat} {body rest : List UInt8}
    {options : List VisibleOption} (lists : Lists remaining 0 body options rest)
    (passes : Passes [] options)
    (room : (encodeOptions 0 (keptOptions [] options)).length ≤ capacity) :
    (headerOnly capacity kind code id).acceptOptions remaining 0 body =
      .ok ((headerOnly capacity kind code id).withOptions (keptOptions [] options), rest) := by
  have none := headerOnly_options capacity kind code id
  have start := headerOnly_tracks kind code id capacity
  obtain ⟨q, accepted⟩ := acceptOptions_complete start (Nat.zero_le _) lists passes
    (by rw [none, List.nil_append]; exact room)
  obtain ⟨others, again, -, -, same⟩ := acceptOptions_sound start (Nat.zero_le _) accepted
  obtain ⟨rfl, -⟩ := lists.unique again
  rw [none, List.nil_append] at same
  rw [accepted, same]

theorem readContent_complete {remaining : Option Nat} {body rest : List UInt8}
    {options : List VisibleOption} (lists : Lists remaining 0 body options rest)
    (passes : Passes [] options)
    (room : (encodeOptions 0 (keptOptions [] options)).length + rest.length ≤ capacity) :
    ∃ p, (headerOnly capacity kind code id).readContent remaining body = .ok p := by
  have accepted := acceptOptions_kept kind code id capacity lists passes
    (Nat.le_of_add_right_le room)
  have fits : ¬ capacity < ((headerOnly capacity kind code id).withOptions
      (keptOptions [] options)).region.length + rest.length := Nat.not_lt_of_le room
  exact ⟨_, by simp only [readContent, accepted, store_setPayload, setPayload_eq, if_neg fits]; rfl⟩

end

theorem announcedOptions_eq (first : UInt8) :
    announcedOptions first = statedOptions (first.toNat % 16) := by
  rw [announcedOptions, low_nibble]
  rfl

theorem decode_sound {bytes : List UInt8} (read : decode capacity bytes = .ok p) :
    ∃ t, Spells bytes t ∧ t.Acceptable capacity ∧ p.kind = t.kind ∧ p.code = t.code ∧
      p.id = t.id ∧ p.options = t.kept ∧ p.payload = t.payload := by
  have whole := read
  unfold decode at read
  split at read
  · next first code high low body =>
    split at read
    · cases read
    · next kind sort =>
      simp only at read
      split at read
      · cases read
      · next spoken =>
        have version : first >>> 6 = protocolVersion := not_not.mp spoken
        rw [decode_cons version sort, announcedOptions_eq] at whole
        obtain ⟨options, rest, lists, passes, room, fields⟩ := readContent_sound _ _ _ whole
        obtain ⟨category, detail⟩ := (code_fields code _).mp rfl
        exact ⟨⟨kind, Code.ofByte code, MessageId.ofBytes high low, options, rest⟩,
          .datagram ((firstByte_fields first kind).1.mp version)
            ((firstByte_fields first kind).2.mp sort) category detail
            ((id_fields high low _).mp rfl) lists,
          ⟨passes, room⟩, fields⟩
  · cases read

theorem decode_complete {bytes : List UInt8} {t : Transcript} (spells : Spells bytes t)
    (acceptable : t.Acceptable capacity) : ∃ p, decode capacity bytes = .ok p := by
  obtain ⟨version, kind, category, detail, id, lists⟩ := spells
  rw [decode_cons ((firstByte_fields _ t.kind).1.mpr version)
    ((firstByte_fields _ t.kind).2.mpr kind), announcedOptions_eq]
  exact readContent_complete _ _ _ lists acceptable.passes acceptable.room

/-- Reading succeeds on exactly the datagrams of the grammar that are acceptable, and gives
what they spell. -/
theorem decode_iff_spells (capacity : Nat) (bytes : List UInt8) :
    ((∃ p, decode capacity bytes = .ok p) ↔ ∃ t, Spells bytes t ∧ t.Acceptable capacity) ∧
      ∀ p t, decode capacity bytes = .ok p → Spells bytes t →
        p.kind = t.kind ∧ p.code = t.code ∧ p.id = t.id ∧ p.options = t.kept ∧
          p.payload = t.payload := by
  refine ⟨⟨?_, ?_⟩, ?_⟩
  · rintro ⟨p, read⟩
    obtain ⟨t, spells, acceptable, -⟩ := decode_sound read
    exact ⟨t, spells, acceptable⟩
  · rintro ⟨t, spells, acceptable⟩
    exact decode_complete spells acceptable
  · intro p t read spells
    obtain ⟨u, others, -, fields⟩ := decode_sound read
    rwa [spells.unique others]

/-- Of three options before a marker the second is one too many and the third unknown; the
payload begins like a marker. -/
theorem decode_iff_spells_marked :
    let bytes : List UInt8 := [0x4F, 1, 0, 7, 0xA1, 5, 0x01, 6, 0x60, 0xF0, 0xF0]
    let t : Transcript := ⟨.confirmable, Code.get, ⟨7⟩, [⟨10, [5]⟩, ⟨10, [6]⟩, ⟨16, []⟩], [0xF0]⟩
    Spells bytes t ∧ ∃ p, decode 3 bytes = .ok p ∧ p.kind = .confirmable ∧ p.code = Code.get ∧
      p.id = ⟨7⟩ ∧ p.options = [⟨10, [5]⟩] ∧ p.payload = [0xF0] := by
  intro bytes t
  have third : Lists none 10 [0x60, 0xF0, 0xF0] [⟨16, []⟩] [0xF0] :=
    .unstated (by decide) (.short 0x60 [] [0xF0, 0xF0] rfl (by decide)) (.marked _ _)
  have second : Lists none 10 [0x01, 6, 0x60, 0xF0, 0xF0] [⟨10, [6]⟩, ⟨16, []⟩] [0xF0] :=
    .unstated (by decide) (.short 0x01 [6] _ rfl (by decide)) third
  have spells : Spells bytes t :=
    .datagram rfl rfl rfl rfl rfl
      (.unstated (by decide) (.short 0xA1 [5] _ rfl (by decide)) second)
  have passes : Passes [] t.options := by
    simp only [t, passes_cons]
    exact ⟨by decide, by decide, by decide, by decide, by decide, by decide, passes_nil _⟩
  obtain ⟨p, read⟩ := (decode_iff_spells 3 bytes).1.mpr ⟨t, spells, passes, by decide +kernel⟩
  obtain ⟨kind, code, id, options, payload⟩ := (decode_iff_spells 3 bytes).2 p t read spells
  exact ⟨spells, p, read, kind, code, id, by rw [options]; decide, payload⟩

end Packet
end CoapNode
