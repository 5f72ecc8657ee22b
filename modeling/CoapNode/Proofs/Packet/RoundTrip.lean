import CoapNode.Proofs.Packet.Edits
/-! Reading undoes writing. Fenceposts are dropped and made anew, so the options come back
one by one, each at the end of those before it, and never need more room than the whole. -/
namespace CoapNode

/-! ## The fixed header -/

theorem code_toByte_ofByte (b : UInt8) : (Code.ofByte b).toByte = b := by
  have table : ∀ n : Fin 256, (Code.ofByte (UInt8.ofNat n.val)).toByte = UInt8.ofNat n.val := by
    decide +kernel
  simpa using table ⟨b.toNat, b.toNat_lt⟩

theorem code_ofByte_toByte (b : UInt8) : Code.ofByte (Code.ofByte b).toByte = Code.ofByte b := by
  rw [code_toByte_ofByte]

theorem messageId_ofBytes_toNat (high low : UInt8) :
    (MessageId.ofBytes high low).val.toNat = high.toNat * 256 + low.toNat := by
  have bound := high.toNat_lt
  have shifted : (high.toUInt16 <<< 8).toNat = high.toNat <<< 8 := by
    rw [UInt16.toNat_shiftLeft, UInt8.toNat_toUInt16, show (8 : UInt16).toNat % 16 = 8 from rfl]
    apply Nat.mod_eq_of_lt
    rw [Nat.shiftLeft_eq]
    omega
  rw [MessageId.ofBytes, UInt16.toNat_or, shifted, UInt8.toNat_toUInt16,
    ← Nat.shiftLeft_add_eq_or_of_lt low.toNat_lt, Nat.shiftLeft_eq]

theorem messageId_ofBytes (i : MessageId) :
    MessageId.ofBytes (i.val >>> 8).toUInt8 i.val.toUInt8 = i := by
  obtain ⟨val⟩ := i
  have bound := val.toNat_lt
  have shift : (val >>> 8).toNat = val.toNat / 256 := by
    rw [UInt16.toNat_shiftRight]
    exact Nat.shiftRight_eq_div_pow _ _
  have high : (val >>> 8).toUInt8.toNat = val.toNat / 256 := by
    rw [UInt16.toNat_toUInt8, shift]
    omega
  have whole : (MessageId.ofBytes (val >>> 8).toUInt8 val.toUInt8).val.toNat = val.toNat := by
    rw [messageId_ofBytes_toNat, high, UInt16.toNat_toUInt8]
    omega
  exact congrArg MessageId.mk (UInt16.toNat_inj.mp whole)

theorem firstByte_parts (kind : MessageKind) (count : Nat) (fits : count ≤ 15) :
    let first := (protocolVersion <<< 6) ||| (kind.number <<< 4) ||| UInt8.ofNat count
    first >>> 6 = protocolVersion ∧
      MessageKind.ofNumber? ((first >>> 4) &&& 3) = .ok kind ∧ (first &&& 15).toNat = count := by
  have table : ∀ c : Fin 16, ∀ k ∈ [MessageKind.confirmable, .nonConfirmable, .acknowledgement,
      .reset], let first := (protocolVersion <<< 6) ||| (k.number <<< 4) ||| UInt8.ofNat c.val
      first >>> 6 = protocolVersion ∧
        MessageKind.ofNumber? ((first >>> 4) &&& 3) = .ok k ∧ (first &&& 15).toNat = c.val := by
    decide +kernel
  exact table ⟨count, by omega⟩ kind (by cases kind <;> decide)

theorem firstByte_version (version : UInt8) (kind : MessageKind) (count : Nat) :
    ((version <<< 6) ||| (kind.number <<< 4) ||| UInt8.ofNat (min count unstatedCount)) >>> 6 =
      protocolVersion ↔ version <<< 6 = protocolVersion <<< 6 := by
  have high : ∀ v : Fin 256, (UInt8.ofNat v.val <<< 6) >>> 6 = protocolVersion ↔
      UInt8.ofNat v.val <<< 6 = protocolVersion <<< 6 := by
    decide +kernel
  have low : ∀ c : Fin 16, ∀ k ∈ [MessageKind.confirmable, .nonConfirmable, .acknowledgement,
      .reset], ((k.number <<< 4) ||| UInt8.ofNat c.val) >>> 6 = 0 := by
    decide +kernel
  have small : min count unstatedCount < 16 := Nat.lt_succ_of_le (Nat.min_le_right _ _)
  rw [UInt8.or_assoc, UInt8.shiftRight_or, low ⟨_, small⟩ kind (by cases kind <;> decide),
    UInt8.or_zero]
  simpa using high ⟨version.toNat, version.toNat_lt⟩

/-! ## Options, one at the end of the others -/

theorem splicedOptions_last {options : List VisibleOption} {o : VisibleOption}
    (lawful : LawfulOptions (options ++ [o])) :
    splicedOptions o.number [o.value] false options = options ++ [o] := by
  have none : optionsAbove o.number options = [] := by
    rw [optionsAbove, List.filter_eq_nil_iff]
    intro x member
    have := (List.pairwise_append.mp lawful.sorted).2.2 x member o (List.mem_singleton_self o)
    simpa using this
  have whole := split_at_number o.number ((ascending_append _ _ _).mp lawful.ascending).1
  rw [none, List.append_nil] at whole
  rw [splicedOptions, if_neg (by decide), none, List.append_nil, ← whole]
  rfl

theorem LawfulOptions.front {xs ys : List VisibleOption} (h : LawfulOptions (xs ++ ys)) :
    LawfulOptions xs where
  sorted := (List.pairwise_append.mp h.sorted).1
  lawful := fun o member => h.lawful o (List.mem_append_left _ member)
  single := fun n once => by
    have := h.single n once
    rw [optionsAt_append, List.length_append] at this
    omega

namespace Packet

variable {capacity : Nat} {p : Packet capacity}

/-- A lawful option that comes last is stored as it is, if it has room. -/
theorem Canonical.acceptOption_last (h : p.Canonical) (o : VisibleOption)
    (lawful : LawfulOptions (p.options ++ [o])) :
    p.acceptOption o.number o.value =
      if (encodeOptions 0 (p.options ++ [o])).length + p.payload.length ≤ capacity then
        .ok (p.withOptions (p.options ++ [o]))
      else .error (p.tooLarge .noRoom) := by
  have this := lawful.lawful o (by simp)
  have free : (!o.number.repeatable && p.isSet o.number) = false := by
    cases once : o.number.repeatable with
    | true => rfl
    | false =>
      have single := lawful.single o.number once
      rw [optionsAt_append,
        optionsAt_self (n := o.number) (by simp : ∀ x ∈ [o], x.number = o.number),
        List.length_append, List.length_singleton] at single
      have none : optionsAt o.number p.options = [] := List.eq_nil_of_length_eq_zero (by omega)
      cases set : p.isSet o.number with
      | false => rfl
      | true =>
        obtain ⟨x, member, same⟩ := (h.isSet_iff this.known this.visible).mp set
        have : x ∈ optionsAt o.number p.options := List.mem_filter.mpr ⟨member, by simpa using same⟩
        rw [none] at this
        cases this
  have written : (o.number.format == .text && o.value.isEmpty) = false := by
    cases text : o.number.format == .text with
    | false => rfl
    | true => simpa using this.written (by simpa using text)
  have short : ¬ o.number.maxLength < o.value.length := Nat.not_lt_of_le this.fits
  rw [Packet.acceptOption, if_neg (by simp [this.visible]), if_neg (by simp [this.known]),
    if_neg (by simp [free]), if_neg (by simp [written]), if_neg short, store_splice,
    h.splice_eq, splicedOptions_last lawful]
  by_cases room : (encodeOptions 0 (p.options ++ [o])).length + p.payload.length ≤ capacity
  · simp only [if_pos room]
  · simp only [if_neg room]

/-- What follows the options: a marker unless their number was stated. -/
def closing (remaining : Option Nat) (payload : List UInt8) : List UInt8 :=
  if remaining = none then endOfOptions :: payload else payload

theorem closing_pred (remaining : Option Nat) (payload : List UInt8) :
    closing (remaining.map (· - 1)) payload = closing remaining payload := by
  cases remaining <;> rfl

theorem acceptOptions_taken {q : Packet capacity} {remaining : Option Nat} {number delta : Nat}
    {bytes value tail : List UInt8} (more : remaining ≠ some 0)
    (unmarked : remaining = none → bytes.head? ≠ some endOfOptions)
    (read : RawOption.read? bytes = some ⟨delta, value, tail⟩)
    (accepted : p.acceptOption (advanceNumber number delta) value = .ok q) :
    p.acceptOptions remaining number bytes =
      q.acceptOptions (remaining.map (· - 1)) (advanceNumber number delta) tail := by
  rw [Packet.acceptOptions, if_neg more, if_neg fun marked => unmarked marked.1 marked.2]
  split
  · next none => rw [read] at none; cases none
  · next found =>
    rw [read] at found
    cases found
    simp only [accepted]

theorem head?_encodeRaw_ne {current : Nat} {o : VisibleOption} (ahead : List VisibleOption)
    (rest : List UInt8) (reach : needsFencepost (o.number - current) o.value.length = false) :
    (encodeRaw current (o :: ahead) ++ rest).head? ≠ some endOfOptions := by
  intro marker
  rw [encodeRaw, encodeOption_eq_cons] at marker
  exact headerOf_ne_endOfOptions reach (Option.some.inj marker)

/-- Reading bridged options appends the visible ones in order. The induction is on the
options still to be read; those read so far are in the packet. -/
theorem Canonical.acceptOptions_bridged (h : p.Canonical) (remaining : Option Nat)
    (current : Nat) (ahead : List VisibleOption) (payload : List UInt8)
    (counted : ∀ n, remaining = some n → n = ahead.length) (encodable : Encodable current ahead)
    (lawful : LawfulOptions
      (p.options ++ ahead.filter fun o => !isFencepost o.number))
    (fits : (encodeOptions 0 (p.options ++ ahead.filter fun o => !isFencepost o.number)).length +
      p.payload.length ≤ capacity) :
    p.acceptOptions remaining current (encodeRaw current ahead ++ closing remaining payload) =
      .ok (p.withOptions (p.options ++ ahead.filter fun o => !isFencepost o.number),
        payload) := by
  induction ahead generalizing p remaining current with
  | nil =>
    rw [List.filter_nil, List.append_nil, h.withOptions_self, encodeRaw, List.nil_append]
    rw [Packet.acceptOptions]
    cases remaining with
    | none => simp [closing]
    | some n => simp [counted n rfl, closing]
  | cons o ahead ih =>
    obtain ⟨⟨ascends, small, length, reach⟩, tail⟩ := encodable
    have short : o.number - current ≤ 15 := by
      rw [needsFencepost_eq_false] at reach; lia
    have number : advanceNumber current (o.number - current) = o.number := by
      unfold advanceNumber; lia
    have more : remaining ≠ some 0 := by
      intro none
      have := counted 0 none
      simp at this
    have unmarked : remaining = none →
        (encodeRaw current (o :: ahead) ++ closing remaining payload).head? ≠
          some endOfOptions := fun _ => head?_encodeRaw_ne ahead _ reach
    have read : RawOption.read? (encodeRaw current (o :: ahead) ++ closing remaining payload) =
        some ⟨o.number - current, o.value, encodeRaw o.number ahead ++
          closing (remaining.map (· - 1)) payload⟩ := by
      rw [encodeRaw, List.append_assoc, read?_encodeOption _ _ _ short length, closing_pred]
    have countedTail : ∀ n, remaining.map (· - 1) = some n → n = ahead.length := by
      intro n stated
      obtain ⟨m, known, rfl⟩ := Option.map_eq_some_iff.mp stated
      rw [counted m known]
      rfl
    cases fence : isFencepost o.number with
    | true =>
      rw [List.filter_cons_of_neg (by simp [fence])] at lawful fits ⊢
      have dropped : p.acceptOption o.number o.value = .ok p := by
        rw [Packet.acceptOption, if_pos fence]
      rw [acceptOptions_taken more unmarked read (by rwa [number]), number]
      exact ih h _ _ countedTail tail lawful fits
    | false =>
      rw [List.filter_cons_of_pos (by simp [fence]), List.append_cons] at lawful fits ⊢
      have room : (encodeOptions 0 (p.options ++ [o])).length + p.payload.length ≤ capacity := by
        rw [encodeOptions_append, List.length_append] at fits
        omega
      have options := p.withOptions_options _ lawful.front
      have stored := h.acceptOption_last o lawful.front
      rw [if_pos room] at stored
      have rest := ih (p.withOptions_canonical _ lawful.front room) _ o.number countedTail tail
        (by rwa [options]) (by rwa [options])
      rw [acceptOptions_taken more unmarked read (by rwa [number]), number]
      rwa [options, withOptions_withOptions] at rest

theorem statedCount_eq (p : Packet capacity) :
    p.statedCount = UInt8.ofNat (min p.optionCount unstatedCount) := by
  unfold statedCount needsEndMarker
  split
  · next many => rw [Nat.min_eq_right (by simpa using many)]
  · next few => rw [Nat.min_eq_left (by simp at few; omega)]

theorem datagram_length (p : Packet capacity) : p.datagram.length = p.serializedLength := by
  unfold datagram serializedLength headerLength MessageId.toBytes
  cases p.needsEndMarker <;> simp <;> omega

theorem Canonical.optionCount_eq (h : p.Canonical) :
    p.optionCount = (bridge 0 p.options).length := by
  rw [h.optionCount, h.encodes.entries_eq, layOut_length]

theorem Canonical.body_eq (h : p.Canonical) (first : UInt8)
    (stated : (first &&& 15).toNat = min p.optionCount unstatedCount) :
    p.region ++ (if p.needsEndMarker then [endOfOptions] else []) ++ p.payload =
      encodeRaw 0 (bridge 0 p.options) ++ closing (announcedOptions first) p.payload := by
  rw [h.region, encodeOptions_eq, List.append_assoc]
  congr 1
  unfold announcedOptions closing needsEndMarker
  rw [stated]
  by_cases many : unstatedCount ≤ p.optionCount
  · simp [many]
  · have : min p.optionCount unstatedCount ≠ unstatedCount := by omega
    simp [many, this]

theorem announcedOptions_eq_some {first : UInt8} {n count : Nat}
    (stated : (first &&& 15).toNat = min count unstatedCount)
    (announced : announcedOptions first = some n) : n = count := by
  unfold announcedOptions at announced
  rw [stated] at announced
  simp only at announced
  split at announced
  · cases announced
  · cases announced
    omega

/-- A packet with a header and nothing else. -/
def headerOnly (capacity : Nat) (kind : MessageKind) (code : Code) (id : MessageId) :
    Packet capacity := { fresh capacity with kind, code, id }

theorem headerOnly_canonical (capacity : Nat) (kind : MessageKind) (code : Code)
    (id : MessageId) :
    (headerOnly capacity kind code id).Canonical :=
  (fresh_canonical capacity).of_same_content rfl rfl rfl rfl

theorem headerOnly_options (capacity : Nat) (kind : MessageKind) (code : Code)
    (id : MessageId) :
    (headerOnly capacity kind code id).options = [] := options_of_region_nil rfl

theorem decode_cons {first code high low : UInt8} {body : List UInt8} {kind : MessageKind}
    (version : first >>> 6 = protocolVersion)
    (sort : MessageKind.ofNumber? ((first >>> 4) &&& 3) = .ok kind) :
    decode capacity (first :: code :: high :: low :: body) =
      (headerOnly capacity kind (Code.ofByte code) (MessageId.ofBytes high low)).readContent
        (announcedOptions first) body := by
  simp only [decode, sort, version, ne_eq, not_true_eq_false, if_false]
  rfl

theorem Canonical.readContent_body (h : p.Canonical) (first : UInt8)
    (stated : (first &&& 15).toNat = min p.optionCount unstatedCount) :
    (headerOnly capacity p.kind p.code p.id).readContent (announcedOptions first)
        (p.region ++ (if p.needsEndMarker then [endOfOptions] else []) ++ p.payload) =
      .ok { p with version := protocolVersion, fault := {} } := by
  have start := headerOnly_canonical capacity p.kind p.code p.id
  have none := headerOnly_options capacity p.kind p.code p.id
  have room := h.room
  rw [h.region] at room
  have shown := filter_bridge 0 p.options h.lawful.visible
  have read := start.acceptOptions_bridged (announcedOptions first) 0 (bridge 0 p.options)
    p.payload (fun n announced => by
      rw [announcedOptions_eq_some stated announced, h.optionCount_eq])
    (bridge_encodable 0 p.options h.lawful.ascending)
    (by rw [none, shown, List.nil_append]; exact h.lawful)
    (by rw [none, shown, List.nil_append]; exact Nat.le_of_add_right_le room)
  rw [none, shown, List.nil_append] at read
  have fits : ¬ capacity < ((headerOnly capacity p.kind p.code p.id).withOptions
      p.options).region.length + p.payload.length := Nat.not_lt_of_le room
  have content : (headerOnly capacity p.kind p.code p.id).withOptions p.options =
      { p with version := protocolVersion, fault := {}, payload := [] } := by
    rw [withOptions, ← h.region]
    have whole : p.reindex = p := by
      rw [reindex, ← h.optionCount, ← h.index]
    conv => rhs; rw [← whole]
    rfl
  rw [readContent, h.body_eq first stated, read]
  simp only [store_setPayload, setPayload_eq, if_neg fits]
  rw [content]

/-- Reading a canonical packet's datagram gives the packet back, its error context apart. -/
theorem Canonical.decode_datagram (h : p.Canonical) (version : p.version = protocolVersion)
    (code : Code.ofByte p.code.toByte = p.code) :
    decode capacity p.datagram = .ok { p with fault := {} } := by
  obtain ⟨high, kind, low⟩ := firstByte_parts p.kind (min p.optionCount unstatedCount)
    (Nat.min_le_right _ _)
  rw [datagram, version, statedCount_eq]
  generalize (protocolVersion <<< 6) ||| (p.kind.number <<< 4) |||
    UInt8.ofNat (min p.optionCount unstatedCount) = first at *
  simp only [MessageId.toBytes, List.cons_append, List.nil_append]
  rw [decode_cons high kind, code, messageId_ofBytes, h.readContent_body first low, ← version]

/-- Only the two bits that a datagram has of a version decide whether it is read. It gives the
packet back up to what its header has no room for. -/
theorem Canonical.decode_datagram_iff (h : p.Canonical) {q : Packet capacity} :
    decode capacity p.datagram = .ok q ↔ p.version <<< 6 = protocolVersion <<< 6 ∧
      q = { p with
        version := protocolVersion, code := Code.ofByte p.code.toByte, fault := {} } := by
  have back (version : p.version <<< 6 = protocolVersion <<< 6) :
      decode capacity p.datagram = .ok { p with
        version := protocolVersion, code := Code.ofByte p.code.toByte, fault := {} } := by
    have cut : ({ p with version := protocolVersion, code := Code.ofByte p.code.toByte } :
        Packet capacity).Canonical := h.of_same_content rfl rfl rfl rfl
    have same : ({ p with version := protocolVersion, code := Code.ofByte p.code.toByte } :
        Packet capacity).datagram = p.datagram := by
      simp only [datagram, version, code_toByte_ofByte]
      rfl
    rw [← same]
    exact cut.decode_datagram rfl (code_ofByte_toByte _)
  constructor
  · intro read
    have version : p.version <<< 6 = protocolVersion <<< 6 := by
      have spoken := read
      rw [datagram, statedCount_eq] at spoken
      simp only [MessageId.toBytes, List.cons_append, List.nil_append, decode] at spoken
      split at spoken
      · cases spoken
      · split at spoken
        · cases spoken
        · next same => exact (firstByte_version _ _ _).mp (not_not.mp same)
    exact ⟨version, Except.ok.inj (read.symm.trans (back version))⟩
  · rintro ⟨version, rfl⟩
    exact back version

theorem take_of_serialize {buffer bytes : List UInt8} {length : Nat}
    (written : p.serialize buffer = .ok (bytes, length)) : bytes.take length = p.datagram := by
  unfold serialize at written
  split at written
  · cases written
    rw [← datagram_length, List.take_left]
  · cases written

theorem agrees_refl (p : Packet capacity) : p.agrees p = true := by simp [agrees]

/-- Any packet that a caller can hold is written into a buffer of just its length and read
back, whatever the reader held before. A version or a code that the header has no room for
would come back cut. -/
theorem decode_serialize (capacity : Nat) (edits : List PacketEdit)
    (version : (reach capacity edits).version = protocolVersion)
    (code : ∃ b, (reach capacity edits).code = Code.ofByte b) (buffer : List UInt8)
    (size : buffer.length = (reach capacity edits).serializedLength) :
    let p := reach capacity edits
    ∃ bytes q, p.serialize buffer = .ok (bytes, bytes.length) ∧ bytes.length = buffer.length ∧
      decode capacity bytes = .ok q ∧ (∀ target : Packet capacity, target.edit (.read bytes) = q) ∧
      q.agrees p = true ∧ q.options = p.options ∧ q.optionCount = p.optionCount ∧
      q.index = p.index ∧ q.payload = p.payload := by
  intro p
  have h : p.Canonical := reach_canonical capacity edits
  have cut : Code.ofByte p.code.toByte = p.code := by
    obtain ⟨b, code⟩ := code
    rw [code, code_ofByte_toByte]
  have read := h.decode_datagram version cut
  have written : p.serialize buffer = .ok (p.datagram, p.datagram.length) := by
    have all : buffer.drop p.serializedLength = [] := List.drop_eq_nil_of_le (Nat.le_of_eq size)
    rw [serialize, if_pos (Nat.le_of_eq size.symm), all, List.append_nil, datagram_length]
  refine ⟨p.datagram, { p with fault := {} }, written, ?_, read, fun target => ?_,
    p.agrees_refl, rfl, rfl, rfl, rfl⟩
  · rw [datagram_length, size]
  · rw [Packet.edit, readDatagram, read]

/-- Fourteen options, of which the last needs the fencepost that makes the count fifteen. -/
theorem decode_serialize_fifteenth :
    let edits := List.replicate 13 (.addOption .proxyUri (.text "p")) ++
      [.addOption .ifNoneMatch .empty, .setPayload [0xF0]]
    let p := reach 128 edits
    p.options.length = 14 ∧ p.optionCount = unstatedCount ∧ p.serializedLength = 34 ∧
    p.version = protocolVersion ∧ (∃ b, p.code = Code.ofByte b) ∧
    ∃ bytes q, p.serialize (List.replicate 34 0) = .ok (bytes, bytes.length) ∧
      bytes.length = 34 ∧ decode 128 bytes = .ok q ∧
      (∀ target : Packet 128, target.edit (.read bytes) = q) ∧ q.agrees p = true ∧
      q.options = p.options ∧ q.optionCount = p.optionCount ∧ q.index = p.index ∧
      q.payload = p.payload := by
  intro edits p
  have length : p.serializedLength = 34 := by decide +kernel
  have version : p.version = protocolVersion := by decide +kernel
  have code : ∃ b, p.code = Code.ofByte b := ⟨0, by decide +kernel⟩
  exact ⟨by decide +kernel, by decide +kernel, length, version, code,
    decode_serialize 128 edits version code (List.replicate 34 0) length.symm⟩

end Packet
end CoapNode
