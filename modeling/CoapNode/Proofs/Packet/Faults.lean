import CoapNode.Proofs.Packet.Refusing
/-! Why a datagram is refused. Its first fault in the order of its bytes is told by the grammar and
by the options before it; a refusal reports that fault and no other, and leaves a packet that has
the header of the datagram and nothing else. -/
namespace CoapNode

/-! ## Faults -/

/-- An option that may occur once occurred before. -/
def Repeats (earlier : List VisibleOption) (o : VisibleOption) : Prop :=
  o.number.repeatable = false ∧ ∃ e ∈ earlier, e.number = o.number

/-- Why an option makes a message unacceptable. Of several reasons the first counts. -/
inductive Offends (earlier : List VisibleOption) (o : VisibleOption) : CodecError → Prop
  | unknown (critical : o.number % 2 = 1) (unknown : o.number.known = false) :
      Offends earlier o .unknownCritical
  | repeated (critical : o.number % 2 = 1) (known : o.number.known = true)
      (again : Repeats earlier o) : Offends earlier o .repeatedCritical
  | empty (critical : o.number % 2 = 1) (known : o.number.known = true)
      (first : ¬ Repeats earlier o) (text : o.number.format = .text) (blank : o.value = []) :
      Offends earlier o .emptyText
  | long (kept : ¬ Skipped earlier o) (plain : ¬ Exceptional earlier o)
      (long : o.number.maxLength < o.value.length) : Offends earlier o .valueTooLong

/-- The options are not at their end: more are announced, or there is no marker yet. -/
structure GoesOn (remaining : Option Nat) (bytes : List UInt8) : Prop where
  more : remaining ≠ some 0
  unmarked : remaining = none → bytes.head? ≠ some 0xF0

/-- Bytes that begin with this option, after option `number`. -/
inductive Presents (number : Nat) : List UInt8 → VisibleOption → List UInt8 → Prop
  | cut {bytes value tail : List UInt8} {delta : Nat} (cuts : Cuts bytes delta value tail) :
      Presents number bytes ⟨min (number + delta) 65535, value⟩ tail

/-- The first fault among the options that bytes list, after the options `earlier`, with the code
and the option that a reply should name: an option is torn, offends, or has no room after those
kept before it. -/
inductive Faulty (capacity : Nat) : List VisibleOption → Option Nat → Nat → List UInt8 →
    CodecError → ErrorContext → Prop
  | torn {earlier : List VisibleOption} {remaining : Option Nat} {number : Nat}
      {bytes : List UInt8} (goes : GoesOn remaining bytes)
      (torn : ∀ o tail, ¬ Presents number bytes o tail) :
      Faulty capacity earlier remaining number bytes .optionsOverrun { code := ⟨4, 0⟩ }
  | offending {earlier : List VisibleOption} {remaining : Option Nat} {number : Nat}
      {bytes tail : List UInt8} {o : VisibleOption} {cause : CodecError}
      (goes : GoesOn remaining bytes) (presents : Presents number bytes o tail)
      (offends : Offends earlier o cause) :
      Faulty capacity earlier remaining number bytes cause
        { code := ⟨4, 2⟩, option := some (min o.number 255) }
  | roomless {earlier : List VisibleOption} {remaining : Option Nat} {number : Nat}
      {bytes tail : List UInt8} {o : VisibleOption} (goes : GoesOn remaining bytes)
      (presents : Presents number bytes o tail) (sound : ∀ cause, ¬ Offends earlier o cause)
      (full : capacity < (encodeOptions 0 (keptOptions [] (earlier ++ [o]))).length) :
      Faulty capacity earlier remaining number bytes .noRoom { code := ⟨4, 13⟩ }
  | later {earlier : List VisibleOption} {remaining : Option Nat} {number : Nat}
      {bytes tail : List UInt8} {o : VisibleOption} {cause : CodecError} {context : ErrorContext}
      (goes : GoesOn remaining bytes) (presents : Presents number bytes o tail)
      (sound : ∀ cause, ¬ Offends earlier o cause)
      (room : (encodeOptions 0 (keptOptions [] (earlier ++ [o]))).length ≤ capacity)
      (later : Faulty capacity (earlier ++ [o]) (remaining.map (· - 1)) o.number tail cause
        context) :
      Faulty capacity earlier remaining number bytes cause context

/-- The first fault of a datagram: of its header, of its options, or of a payload that has no
room beside them. -/
inductive FirstFault (capacity : Nat) : List UInt8 → CodecError → ErrorContext → Prop
  | short {bytes : List UInt8} (few : bytes.length < 4) :
      FirstFault capacity bytes .notCoap { code := ⟨4, 0⟩ }
  | version {first code high low : UInt8} {body : List UInt8} (other : first.toNat / 64 ≠ 1) :
      FirstFault capacity (first :: code :: high :: low :: body) .wrongVersion
        { code := ⟨5, 1⟩ }
  | options {first code high low : UInt8} {body : List UInt8} {cause : CodecError}
      {context : ErrorContext} (version : first.toNat / 64 = 1)
      (faulty : Faulty capacity [] (statedOptions (first.toNat % 16)) 0 body cause context) :
      FirstFault capacity (first :: code :: high :: low :: body) cause context
  | payload {first code high low : UInt8} {body rest : List UInt8} {options : List VisibleOption}
      (version : first.toNat / 64 = 1)
      (lists : Lists (statedOptions (first.toNat % 16)) 0 body options rest)
      (passes : Passes [] options)
      (room : (encodeOptions 0 (keptOptions [] options)).length ≤ capacity)
      (full : capacity < (encodeOptions 0 (keptOptions [] options)).length + rest.length) :
      FirstFault capacity (first :: code :: high :: low :: body) .noRoom { code := ⟨4, 13⟩ }

/-- The packet has the header of the datagram, or that of a new packet if the datagram has none,
and no content. -/
structure Cleared {capacity : Nat} (bytes : List UInt8) (p : Packet capacity) : Prop where
  options : p.options = []
  payload : p.payload = []
  free : p.free = capacity
  count : p.optionCount = 0
  index : p.index = emptyIndex
  version : ∀ first ∈ bytes.head?, 4 ≤ bytes.length → p.version.toNat = first.toNat / 64
  heading : 4 ≤ bytes.length → Opens bytes p.heading
  initial : bytes.length < 4 → p.version = 1 ∧ p.heading = ⟨.confirmable, Code.empty, ⟨0⟩⟩

/-! ## One option -/

section

variable {earlier : List VisibleOption} {o : VisibleOption}

theorem offends_iff : (∃ cause, Offends earlier o cause) ↔
    Refused earlier o ∨ (¬ Skipped earlier o ∧ o.number.maxLength < o.value.length) := by
  constructor
  · rintro ⟨cause, offends⟩
    cases offends with
    | unknown critical unknown => exact .inl ⟨critical, .inl unknown⟩
    | repeated critical known again => exact .inl ⟨critical, .inr (.inl again)⟩
    | empty critical known first text blank => exact .inl ⟨critical, .inr (.inr ⟨text, blank⟩)⟩
    | long kept plain long => exact .inr ⟨kept, long⟩
  · intro fault
    by_cases refused : Refused earlier o
    · obtain ⟨critical, reasons⟩ := refused
      cases known : o.number.known with
      | false => exact ⟨_, .unknown critical known⟩
      | true =>
        by_cases again : Repeats earlier o
        · exact ⟨_, .repeated critical known again⟩
        · rcases reasons with unknown | repeated | ⟨text, blank⟩
          · rw [known] at unknown; cases unknown
          · exact absurd repeated again
          · exact ⟨_, .empty critical known again text blank⟩
    · obtain ⟨kept, long⟩ := fault.resolve_left refused
      exact ⟨_, .long kept (plain_of_kept kept refused).2 long⟩

theorem keptOptions_append (earlier xs ys : List VisibleOption) :
    keptOptions earlier (xs ++ ys) =
      keptOptions earlier xs ++ keptOptions (earlier ++ xs) ys := by
  induction xs generalizing earlier with
  | nil => simp [keptOptions]
  | cons o xs ih =>
    rw [List.cons_append, keptOptions_cons, keptOptions_cons, ih, List.append_assoc,
      List.append_assoc]
    rfl

theorem keptOptions_last (earlier : List VisibleOption) (o : VisibleOption) :
    keptOptions [] (earlier ++ [o]) =
      keptOptions [] earlier ++ if Skipped earlier o then [] else [o] := by
  rw [keptOptions_append, List.nil_append, keptOptions_cons, keptOptions, List.append_nil]

end

theorem presents_of_read (number : Nat) {bytes : List UInt8} {x : RawOption}
    (read : RawOption.read? bytes = some x) :
    Presents number bytes ⟨advanceNumber number x.delta, x.value⟩ x.rest :=
  .cut (cuts_iff.mpr read)

theorem presents_iff {number : Nat} {bytes tail : List UInt8} {o : VisibleOption} :
    Presents number bytes o tail ↔ ∃ x, RawOption.read? bytes = some x ∧
      o = ⟨advanceNumber number x.delta, x.value⟩ ∧ tail = x.rest := by
  constructor
  · rintro ⟨cuts⟩
    exact ⟨_, cuts_iff.mp cuts, rfl, rfl⟩
  · rintro ⟨x, read, rfl, rfl⟩
    exact presents_of_read number read

namespace Packet

variable {capacity : Nat} {p q : Packet capacity} {earlier : List VisibleOption} {number : Nat}
  {o : VisibleOption} {cause : CodecError} {context : ErrorContext} {r : Refusal capacity}

/-- The refusal names the reason and the option, as far as a byte can. -/
theorem Tracks.acceptOption_offends (t : p.Tracks earlier number)
    (offends : Offends earlier o cause) :
    p.acceptOption o.number o.value = .error (p.badOption cause (min o.number 255)) := by
  -- a reply names an option by one byte, which holds every number of the table
  have byte (known : o.number.known = true) : min o.number 255 = o.number :=
    Nat.min_eq_left (Nat.le_trans (known_le_largestOption known) (by decide))
  have odd (critical : o.number % 2 = 1) : ¬ isFencepost o.number = true := fun fence => by
    have := fencepost_even fence
    lia
  cases offends with
  | unknown critical unknown =>
    rw [acceptOption, if_neg (odd critical), if_pos (by simp [unknown]),
      if_pos (critical_eq_true.mpr critical)]
  | repeated critical known again =>
    have visible := Bool.eq_false_iff.mpr (odd critical)
    rw [acceptOption, if_neg (odd critical), if_neg (by simp [known]),
      if_pos ((t.again_iff known visible).mpr again), if_pos (critical_eq_true.mpr critical),
      byte known]
  | empty critical known first text blank =>
    have visible := Bool.eq_false_iff.mpr (odd critical)
    rw [acceptOption, if_neg (odd critical), if_neg (by simp [known]),
      if_neg (mt (t.again_iff known visible).mp first), if_pos (by simp [text, blank]),
      if_pos (critical_eq_true.mpr critical), byte known]
  | long kept plain long =>
    have visible : isFencepost o.number = false := by
      simp only [Skipped, not_or, Bool.not_eq_true] at kept
      exact kept.1
    have known : o.number.known = true := by
      simp only [Exceptional, not_or, Bool.not_eq_false] at plain
      exact plain.1
    rw [t.acceptOption_long visible plain long, byte known]

/-- The packet holds the options kept so far, and no payload yet. -/
structure Gathers (p : Packet capacity) (earlier : List VisibleOption) (number : Nat) : Prop where
  tracks : p.Tracks earlier number
  kept : p.options = keptOptions [] earlier
  blank : p.payload = []
  small : number ≤ 65535

theorem Gathers.region (h : p.Gathers earlier number) :
    p.region = encodeOptions 0 (keptOptions [] earlier) := by
  rw [← h.kept]
  exact h.tracks.canonical.region

theorem Gathers.room (h : p.Gathers earlier number) :
    (encodeOptions 0 (keptOptions [] earlier)).length ≤ capacity := by
  have room := h.tracks.canonical.room
  rwa [h.region, h.blank] at room

theorem Gathers.taken (h : p.Gathers earlier number) (next : number ≤ o.number)
    (small : o.number ≤ 65535) (taken : p.acceptOption o.number o.value = .ok q) :
    (∀ cause, ¬ Offends earlier o cause) ∧ q.Gathers (earlier ++ [o]) o.number ∧
      ∀ cause context, q.refuse cause context = p.refuse cause context := by
  obtain ⟨acceptable, short, tracks, stored, same⟩ := h.tracks.acceptOption_ok next taken
  refine ⟨fun cause offends => ?_, ⟨tracks, ?_, ?_, small⟩, fun cause context => ?_⟩
  · rcases offends_iff.mp ⟨cause, offends⟩ with refused | ⟨kept, long⟩
    · exact acceptable refused
    · exact Nat.not_lt_of_le (short kept) long
  · rw [stored, h.kept, keptOptions_last]
  · rw [same]
    exact h.blank
  · rw [same]
    rfl

theorem Gathers.sound (h : p.Gathers earlier number) (next : number ≤ o.number)
    (sound : ∀ cause, ¬ Offends earlier o cause) :
    (∃ q, p.acceptOption o.number o.value = .ok q) ∨
      (capacity < (encodeOptions 0 (keptOptions [] (earlier ++ [o]))).length ∧
        p.acceptOption o.number o.value = .error (p.tooLarge .noRoom)) := by
  have fine := mt offends_iff.mpr (not_exists.mpr sound)
  simp only [not_or, not_and, Nat.not_lt] at fine
  obtain ⟨acceptable, short⟩ := fine
  by_cases skipped : Skipped earlier o
  · exact .inl ⟨p, h.tracks.acceptOption_skipped skipped⟩
  obtain ⟨visible, plain⟩ := plain_of_kept skipped acceptable
  have lawful := h.tracks.lawful next visible plain (short skipped)
  have outcome := h.tracks.canonical.acceptOption_last o lawful
  rw [h.kept, h.blank, List.length_nil, Nat.add_zero] at outcome
  rw [keptOptions_last, if_neg skipped]
  split at outcome
  · exact .inl ⟨_, outcome⟩
  · next full => exact .inr ⟨Nat.lt_of_not_le full, outcome⟩

/-! ## Every option in turn -/

section

variable {remaining : Option Nat} {bytes tail : List UInt8}

theorem acceptOptions_torn (goes : GoesOn remaining bytes)
    (torn : ∀ o tail, ¬ Presents number bytes o tail) :
    p.acceptOptions remaining number bytes = .error p.overrun := by
  rw [acceptOptions, if_neg goes.more, if_neg fun marked => goes.unmarked marked.1 marked.2]
  split
  · rfl
  · next x read => exact absurd (presents_of_read number read) (torn _ _)

theorem acceptOptions_refused (goes : GoesOn remaining bytes)
    (presents : Presents number bytes o tail)
    (refused : p.acceptOption o.number o.value = .error r) :
    p.acceptOptions remaining number bytes = .error r := by
  obtain ⟨x, read, rfl, rfl⟩ := presents_iff.mp presents
  rw [acceptOptions, if_neg goes.more, if_neg fun marked => goes.unmarked marked.1 marked.2]
  split
  · next none => rw [read] at none; cases none
  · next found =>
    rw [read] at found
    cases found
    simp only [refused]

theorem Gathers.presented (h : p.Gathers earlier number) (presents : Presents number bytes o tail) :
    number ≤ o.number ∧ o.number ≤ 65535 := by
  cases presents with
  | cut cuts => exact le_advanceNumber _ h.small

/-- Every refusal while reading options has its fault. -/
theorem Gathers.faulty (h : p.Gathers earlier number)
    (refused : p.acceptOptions remaining number bytes = .error r) :
    ∃ cause context, Faulty capacity earlier remaining number bytes cause context ∧
      r = p.refuse cause context := by
  fun_induction Packet.acceptOptions p remaining number bytes generalizing earlier with
  | case1 | case2 => cases refused
  | case3 p remaining number bytes more unmarked read =>
    cases refused
    refine ⟨_, _, .torn ⟨more, fun none marker => unmarked ⟨none, marker⟩⟩
      fun o tail presents => ?_, rfl⟩
    obtain ⟨x, some, -⟩ := presents_iff.mp presents
    rw [read] at some
    cases some
  | case4 p remaining number bytes more unmarked x read r' failed =>
    cases refused
    have goes : GoesOn remaining bytes := ⟨more, fun none marker => unmarked ⟨none, marker⟩⟩
    have presents := presents_of_read number read
    -- an option that is refused offends, or is sound and has no room
    by_cases offends : ∃ cause, Offends earlier ⟨advanceNumber number x.delta, x.value⟩ cause
    · obtain ⟨cause, offends⟩ := offends
      have named := h.tracks.acceptOption_offends offends
      rw [failed, Except.error.injEq] at named
      exact ⟨_, _, .offending goes presents offends, named⟩
    · have sound := not_exists.mp offends
      rcases h.sound (h.presented presents).1 sound with ⟨q, taken⟩ | ⟨full, lacking⟩
      · rw [failed] at taken
        cases taken
      · rw [failed, Except.error.injEq] at lacking
        exact ⟨_, _, .roomless goes presents sound full, lacking⟩
  | case5 p remaining number bytes more unmarked x read q taken ih =>
    have goes : GoesOn remaining bytes := ⟨more, fun none marker => unmarked ⟨none, marker⟩⟩
    have presents := presents_of_read number read
    obtain ⟨ascends, small⟩ := h.presented presents
    obtain ⟨sound, gathers, same⟩ := h.taken ascends small taken
    obtain ⟨cause, context, faulty, rfl⟩ := ih gathers refused
    exact ⟨cause, context, .later goes presents sound gathers.room faulty, same cause context⟩

theorem Gathers.refused (h : p.Gathers earlier number)
    (faulty : Faulty capacity earlier remaining number bytes cause context) :
    p.acceptOptions remaining number bytes = .error (p.refuse cause context) := by
  induction faulty generalizing p with
  | torn goes torn => exact acceptOptions_torn goes torn
  | offending goes presents offends =>
    exact acceptOptions_refused goes presents (h.tracks.acceptOption_offends offends)
  | roomless goes presents sound full =>
    obtain ⟨ascends, small⟩ := h.presented presents
    rcases h.sound ascends sound with ⟨q, taken⟩ | ⟨-, lacking⟩
    · have room := (h.taken ascends small taken).2.1.room
      omega
    · exact acceptOptions_refused goes presents lacking
  | later goes presents sound room later ih =>
    obtain ⟨ascends, small⟩ := h.presented presents
    rcases h.sound ascends sound with ⟨q, taken⟩ | ⟨full, -⟩
    · obtain ⟨-, gathers, same⟩ := h.taken ascends small taken
      obtain ⟨x, read, rfl, rfl⟩ := presents_iff.mp presents
      rw [acceptOptions_taken goes.more goes.unmarked read taken, ih gathers, same]
    · omega

end

/-! ## The whole datagram -/

section

variable {first code high low : UInt8} {body bytes : List UInt8} {kind : MessageKind}

theorem headerOnly_gathers (capacity : Nat) (kind : MessageKind) (code : Code) (id : MessageId) :
    (headerOnly capacity kind code id).Gathers [] 0 where
  tracks := headerOnly_tracks kind code id capacity
  kept := headerOnly_options capacity kind code id
  blank := rfl
  small := Nat.zero_le _

theorem cleared_refuse (capacity : Nat)
    (sort : MessageKind.ofNumber? ((first >>> 4) &&& 3) = .ok kind) :
    Cleared (first :: code :: high :: low :: body)
      (({ headerOnly capacity kind (Code.ofByte code) (MessageId.ofBytes high low) with
        version := first >>> 6 } : Packet capacity).refuse cause context).remains where
  options := options_of_region_nil rfl
  payload := rfl
  free := rfl
  count := rfl
  index := rfl
  version := by
    intro x head _
    cases Option.some.inj head
    show (first >>> 6).toNat = _
    rw [UInt8.toNat_shiftRight]
    exact Nat.shiftRight_eq_div_pow _ _
  heading := fun _ => opens_iff.mpr ⟨_, _, _, _, _, rfl, sort, rfl, rfl⟩
  initial := fun few => absurd few (Nat.not_lt_of_le (by simp))

theorem cleared_short (few : bytes.length < 4) :
    Cleared bytes ((fresh capacity).refuse cause context).remains where
  options := options_of_region_nil rfl
  payload := rfl
  free := rfl
  count := rfl
  index := rfl
  version := fun _ _ whole => absurd few (Nat.not_lt_of_le whole)
  heading := fun whole => absurd few (Nat.not_lt_of_le whole)
  initial := fun _ => ⟨rfl, rfl⟩

theorem readContent_refused (kind : MessageKind) (code : Code) (id : MessageId)
    {remaining : Option Nat}
    (refused : (headerOnly capacity kind code id).readContent remaining body = .error r) :
    (∃ cause context, Faulty capacity [] remaining 0 body cause context ∧
        r = (headerOnly capacity kind code id).refuse cause context) ∨
      ∃ options rest, Lists remaining 0 body options rest ∧ Passes [] options ∧
        (encodeOptions 0 (keptOptions [] options)).length ≤ capacity ∧
        capacity < (encodeOptions 0 (keptOptions [] options)).length + rest.length ∧
        r = (headerOnly capacity kind code id).refuse .noRoom { code := ⟨4, 13⟩ } := by
  have start := headerOnly_gathers capacity kind code id
  unfold readContent at refused
  split at refused
  · next failed =>
    cases refused
    exact .inl (start.faulty failed)
  · next q rest accepted =>
    obtain ⟨options, lists, passes, lawful, same⟩ :=
      acceptOptions_sound start.tracks (Nat.zero_le _) accepted
    have canonical := (acceptOptions_canonical start.tracks.canonical _ _ _).1 q rest accepted
    have room := canonical.room
    rw [headerOnly_options, List.nil_append] at same
    subst same
    rw [store_setPayload, setPayload_eq] at refused
    split at refused
    · cases refused
    · next e full =>
      split at full
      · next large =>
        cases full
        cases refused
        exact .inr ⟨options, rest, lists, passes, room, large, rfl⟩
      · cases full

theorem firstFault_of_refused (refused : decode capacity bytes = .error r) :
    FirstFault capacity bytes r.cause r.remains.fault ∧ Cleared bytes r.remains := by
  match bytes, refused with
  | [], refused | [_], refused | [_, _], refused | [_, _, _], refused =>
    cases refused
    exact ⟨.short (by simp), cleared_short (by simp)⟩
  | first :: code :: high :: low :: body, refused =>
    obtain ⟨kind, sort⟩ := ofNumber?_masked first
    by_cases version : first >>> 6 = protocolVersion
    · have spoken := (firstByte_fields first kind).1.mp version
      rw [decode_cons version sort, announcedOptions_eq] at refused
      have header : headerOnly capacity kind (Code.ofByte code) (MessageId.ofBytes high low) =
          { headerOnly capacity kind (Code.ofByte code) (MessageId.ofBytes high low) with
            version := first >>> 6 } := by
        rw [version]
        rfl
      rcases readContent_refused _ _ _ refused with
        ⟨cause, context, faulty, rfl⟩ | ⟨options, rest, lists, passes, room, full, rfl⟩
      · exact ⟨.options spoken faulty, header ▸ cleared_refuse capacity sort⟩
      · exact ⟨.payload spoken lists passes room full, header ▸ cleared_refuse capacity sort⟩
    · have other := mt (firstByte_fields first kind).1.mpr version
      rw [decode_other_version version sort] at refused
      cases refused
      exact ⟨.version other, cleared_refuse capacity sort⟩

theorem refused_of_firstFault (fault : FirstFault capacity bytes cause context) :
    ∃ r, decode capacity bytes = .error r ∧ r.cause = cause ∧ r.remains.fault = context := by
  cases fault with
  | short few =>
    match bytes, few with
    | [], _ | [_], _ | [_, _], _ | [_, _, _], _ => exact ⟨_, rfl, rfl, rfl⟩
  | @version first code high low body other =>
    obtain ⟨kind, sort⟩ := ofNumber?_masked first
    exact ⟨_, decode_other_version (mt (firstByte_fields first kind).1.mp other) sort, rfl, rfl⟩
  | @options first code high low body _ _ spoken faulty =>
    obtain ⟨kind, sort⟩ := ofNumber?_masked first
    have version := (firstByte_fields first kind).1.mpr spoken
    refine ⟨(headerOnly capacity kind (Code.ofByte code)
      (MessageId.ofBytes high low)).refuse cause context, ?_, rfl, rfl⟩
    rw [decode_cons version sort, announcedOptions_eq, readContent,
      (headerOnly_gathers capacity kind _ _).refused faulty]
  | @payload first code high low body rest options spoken lists passes room full =>
    obtain ⟨kind, sort⟩ := ofNumber?_masked first
    have version := (firstByte_fields first kind).1.mpr spoken
    have accepted := acceptOptions_kept kind (Code.ofByte code)
      (MessageId.ofBytes high low) capacity lists passes room
    have large : capacity < ((headerOnly capacity kind (Code.ofByte code)
      (MessageId.ofBytes high low)).withOptions (keptOptions [] options)).region.length +
        rest.length := full
    refine ⟨(headerOnly capacity kind (Code.ofByte code)
      (MessageId.ofBytes high low)).tooLarge .noRoom, ?_, rfl, rfl⟩
    rw [decode_cons version sort, announcedOptions_eq]
    simp only [readContent, accepted, store_setPayload, setPayload_eq, if_pos large]
    rfl

end

/-- A refusal reports the first fault of the datagram and no other, and of whatever the packet
held before it leaves nothing but room. -/
theorem refusal_reports_first_fault {bytes : List UInt8} {r : Refusal capacity}
    (refused : decode capacity bytes = .error r) (before : Packet capacity) :
    let left := before.edit (.read bytes)
    (∀ cause context, FirstFault capacity bytes cause context ↔
      cause = r.cause ∧ context = left.fault) ∧ Cleared bytes left := by
  have left : before.edit (.read bytes) = r.remains := by
    simp only [Packet.edit, readDatagram, refused]
  obtain ⟨fault, cleared⟩ := firstFault_of_refused refused
  rw [left]
  refine ⟨fun cause context => ⟨fun other => ?_, ?_⟩, cleared⟩
  · obtain ⟨r', again, rfl, rfl⟩ := refused_of_firstFault other
    rw [refused] at again
    cases again
    exact ⟨rfl, rfl⟩
  · rintro ⟨rfl, rfl⟩
    exact fault

/-- A host that repeats stands before a path without a character and a torn option. -/
theorem refusal_reports_first_fault_repeated :
    let bytes : List UInt8 := [0x54, 1, 0, 7, 0x51, 104, 0x01, 105, 0x40, 0x13]
    let left := (reach 8 [.addOption .uriPath (.text "a"), .setPayload [1]]).edit (.read bytes)
    (∃ r, decode 8 bytes = .error r) ∧ FirstFault 8 bytes .repeatedCritical left.fault ∧
      left.fault = { code := ⟨4, 2⟩, option := some .uriHost } ∧ Cleared bytes left := by
  intro bytes left
  have named : left.fault = { code := ⟨4, 2⟩, option := some .uriHost } := by decide +kernel
  have reported : (match decode 8 bytes with
      | .ok _ => none
      | .error r => some r.cause) = some .repeatedCritical := by decide +kernel
  cases refused : decode 8 bytes with
  | ok p => rw [refused] at reported; cases reported
  | error r =>
    rw [refused, Option.some.injEq] at reported
    obtain ⟨first, cleared⟩ := refusal_reports_first_fault refused
      (reach 8 [.addOption .uriPath (.text "a"), .setPayload [1]])
    exact ⟨⟨r, rfl⟩, (first _ _).mpr ⟨reported.symm, rfl⟩, named, cleared⟩

end Packet
end CoapNode
