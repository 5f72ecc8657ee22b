import CoapNode.Observe.Condition
import CoapNode.Proofs.Packet.Fields
/-! Conditions as bytes. A condition is read back from what was written of it, and whatever can be
read is written with the same head and without the zeros in front of its threshold. A written
condition is never too long for its option, and stays where it was added to a packet until options
of its kind are set anew or removed. -/
namespace CoapNode

/-! ## Heads -/

theorem forall_byte {P : UInt8 → Prop} (all : ∀ n < 256, P (UInt8.ofNat n)) (b : UInt8) : P b := by
  have one := all b.toNat b.toNat_lt
  rwa [UInt8.ofNat_toNat] at one

theorem head_fields (b : UInt8) :
    ((b >>> 3) <<< 3) ||| (if b &&& 4 != 0 then 4 else 0) ||| (b &&& 3) = b := by
  refine forall_byte (P := fun b =>
    ((b >>> 3) <<< 3) ||| (if b &&& 4 != 0 then 4 else 0) ||| (b &&& 3) = b) ?_ b
  decide +kernel

theorem packed_fields (kind : ConditionKind) (confirmable : Bool) (format : ThresholdFormat) :
    let b := (kind.number <<< 3) ||| (if confirmable then 4 else 0) ||| format.number
    b >>> 3 = kind.number ∧ b &&& 3 = format.number ∧ (b &&& 4 != 0) = confirmable := by
  cases kind <;> cases confirmable <;> cases format <;> decide

theorem ConditionKind.ofNumber?_eq_some {n : UInt8} {kind : ConditionKind} :
    ofNumber? n = some kind ↔ kind.number = n := by
  constructor
  · intro found
    have numbered : ∀ i (inside : i < all.length), all[i].number.toNat = i := by decide
    obtain ⟨inside, rfl⟩ := List.getElem?_eq_some_iff.mp found
    exact UInt8.toNat_inj.mp (numbered _ inside)
  · rintro rfl
    cases kind <;> rfl

theorem ConditionKind.ofNumber?_isSome {n : UInt8} : (ofNumber? n).isSome = true ↔ n ≤ 9 := by
  rw [ofNumber?, isSome_getElem?, UInt8.le_iff_toNat_le]
  exact Nat.lt_succ_iff

theorem ThresholdFormat.ofNumber?_eq_some {n : UInt8} {format : ThresholdFormat} :
    ofNumber? n = some format ↔ format.number = n := by
  unfold ofNumber?
  cases format <;> simp only [number] <;> grind

theorem ThresholdFormat.ofNumber?_isSome {n : UInt8} : (ofNumber? n).isSome = true ↔ n ≤ 2 := by
  refine forall_byte (P := fun n => (ofNumber? n).isSome = true ↔ n ≤ 2) ?_ n
  decide +kernel

namespace Condition

variable {c : Condition} {head : UInt8} {value bytes : List UInt8}

/-! ## Reading and writing -/

/-- A head is read by the numbers in it, and says nothing else. -/
theorem head_eq_iff : c.head = head ↔ c.kind.number = head >>> 3 ∧
    c.format.number = head &&& 3 ∧ c.confirmable = (head &&& 4 != 0) := by
  constructor
  · rintro rfl
    obtain ⟨kind, format, confirmable⟩ := packed_fields c.kind c.confirmable c.format
    exact ⟨kind.symm, format.symm, confirmable.symm⟩
  · rintro ⟨kind, format, confirmable⟩
    rw [Condition.head, kind, format, confirmable, head_fields]

theorem parse?_cons_eq_some : parse? (head :: value) = some c ↔
    value.length ≤ 4 ∧ c.head = head ∧ c.raw = bigEndian value := by
  obtain ⟨kind, confirmable, format, raw⟩ := c
  rw [head_eq_iff, ← ConditionKind.ofNumber?_eq_some, ← ThresholdFormat.ofNumber?_eq_some, parse?]
  by_cases long : 4 < value.length
  · simp [long]
  · rw [if_neg long]
    cases ConditionKind.ofNumber? (head >>> 3) <;>
      cases ThresholdFormat.ofNumber? (head &&& 3) <;> grind

theorem parse?_cons_isSome : (parse? (head :: value)).isSome = true ↔
    value.length ≤ 4 ∧ head >>> 3 ≤ 9 ∧ head &&& 3 ≤ 2 := by
  rw [← ConditionKind.ofNumber?_isSome, ← ThresholdFormat.ofNumber?_isSome, parse?]
  by_cases long : 4 < value.length
  · simp [long]
  · rw [if_neg long]
    cases ConditionKind.ofNumber? (head >>> 3) <;>
      cases ThresholdFormat.ofNumber? (head &&& 3) <;> simp [Nat.le_of_not_lt long]

theorem encode_length (c : Condition) : 1 ≤ c.encode.length ∧ c.encode.length ≤ 5 := by
  have short := ShortBytes.minimalBytes_length_le c.raw
  rw [encode, List.length_cons]
  omega

theorem parse?_encode (c : Condition) : parse? c.encode = some c :=
  parse?_cons_eq_some.mpr
    ⟨ShortBytes.minimalBytes_length_le c.raw, rfl, (bigEndian_minimalBytes c.raw).symm⟩

/-- What was read is written without the zeros in front of its threshold. -/
theorem encode_of_parse? (read : parse? (head :: value) = some c) :
    c.encode = head :: value.dropWhile (· == 0) := by
  obtain ⟨short, same, raw⟩ := parse?_cons_eq_some.mp read
  rw [encode, same, raw, minimalBytes_bigEndian short]

structure Writes (c : Condition) (buffer after : List UInt8) (n : Nat) : Prop where
  nonempty : 1 ≤ n
  short : n ≤ 5
  length : after.length = buffer.length
  front : after.take n = c.encode
  rest : after.drop n = buffer.drop n

theorem writes_front (c : Condition) {buffer : List UInt8} (room : 5 ≤ buffer.length) :
    c.Writes buffer (c.write buffer).1 (c.write buffer).2 where
  nonempty := c.encode_length.1
  short := c.encode_length.2
  length := by
    have short := c.encode_length.2
    simp only [write, List.length_append, List.length_drop]
    omega
  front := List.take_left
  rest := List.drop_left

end Condition

/-! ## In a packet -/

/-- The edit may replace or drop what a packet has of the option. -/
def PacketEdit.Overrides (n : OptionNumber) : PacketEdit → Prop
  | .reset | .read _ => True
  | .setOption m _ | .removeOption m => m = n
  | .setUriPath _ => .uriPath = n
  | .setUriQuery _ => .uriQuery = n
  | .setLocationPath _ => .locationPath = n
  | .setUriHost _ => .uriHost = n
  | .setUriPort _ => .uriPort = n
  | .setToken _ => .token = n
  | .setContentType _ => .contentType = n
  | .setMaxAge _ => .maxAge = n
  | .setObserve _ => .observe = n
  | _ => False

namespace Packet

variable {capacity : Nat} {p q : Packet capacity} {n m : OptionNumber} {v : OptionValue}

theorem Leaves.keeps {values : List (List UInt8)} (h : p.Leaves q m values)
    (visible : isFencepost n = false) (other : m ≠ n) : p.segments n <+: q.segments n := by
  rw [h.others n (Ne.symm other) visible]

theorem Canonical.addOption_keeps (h : p.Canonical) (visible : isFencepost n = false)
    (added : p.addOption m v = .ok q) : p.segments n <+: q.segments n := by
  have left := h.addOption_leaves added
  by_cases same : m = n
  · rw [← same, left.segments]
    exact List.prefix_append _ _
  · exact left.keeps visible same

theorem Canonical.setPieces_keeps (h : p.Canonical) (visible : isFencepost n = false)
    (other : m ≠ n) {s : String} (done : p.edited (.setPieces m s) = .ok q) :
    p.segments n <+: q.segments n := by
  rw [setPieces_eq] at done
  split at done
  · exact (h.removeOption_leaves done).keeps visible other
  · exact (h.setOption_leaves done).keeps visible other

theorem attempt_keeps {e : Edit capacity} (atomic : e.Atomic)
    (keeps : ∀ q, p.edited e = .ok q → p.segments n <+: q.segments n) :
    p.segments n <+: (p.attempt e).1.segments n := by
  rcases atomic.attempt_cases p with same | done
  · rw [same]
  · exact keeps _ done

theorem Canonical.edit_keeps (h : p.Canonical) (visible : isFencepost n = false) {e : PacketEdit}
    (spares : ¬ e.Overrides n) : p.segments n <+: (p.edit e).segments n := by
  have called : ∀ c : FieldCall, c.number ≠ n →
      p.segments n <+: (p.attempt c.edit).1.segments n := fun c other =>
    attempt_keeps c.edit_atomic fun _ done => (FieldCall.run_leaves h done).keeps visible other
  cases e with
  | reset | read => exact absurd trivial spares
  | setKind | setCode | setId => exact List.prefix_refl _
  | addOption | addUriQuery | addAccept | addCondition =>
    exact attempt_keeps (Edit.addOption_atomic ..) fun _ => h.addOption_keeps visible
  | setOption =>
    exact attempt_keeps (Edit.setOption_atomic ..) fun _ done =>
      (h.setOption_leaves done).keeps visible spares
  | removeOption =>
    exact attempt_keeps (Edit.removeOption_atomic _) fun _ done =>
      (h.removeOption_leaves done).keeps visible spares
  | setPayload bytes =>
    refine attempt_keeps (Edit.setPayload_atomic bytes) fun q done => ?_
    obtain ⟨-, rfl⟩ := setPayload_ok done
    exact List.prefix_refl _
  | setUriPath | setUriQuery | setLocationPath =>
    exact attempt_keeps (Edit.setPieces_atomic ..) fun _ => h.setPieces_keeps visible spares
  | setUriHost host => exact called (.uriHost host) spares
  | setUriPort port => exact called (.uriPort port) spares
  | setToken token => exact called (.token token) spares
  | setContentType format => exact called (.contentType format) spares
  | setMaxAge seconds => exact called (.maxAge seconds) spares
  | setObserve number => exact called (.observe number) spares

theorem Canonical.edits_keep (h : p.Canonical) (visible : isFencepost n = false)
    {edits : List PacketEdit} (spare : ∀ e ∈ edits, ¬ e.Overrides n) :
    p.segments n <+: (edits.foldl Packet.edit p).segments n := by
  induction edits generalizing p with
  | nil => exact List.prefix_refl _
  | cons e rest ih =>
    have first := h.edit_keeps visible (spare e (List.mem_cons_self ..))
    exact first.trans (ih (h.edit e) fun x member => spare x (List.mem_cons_of_mem e member))

theorem Canonical.addCondition_error (h : p.Canonical) (c : Condition) {e : CodecError}
    (refused : p.edited (.addCondition c.encode) = .error e) : e = .noRoom := by
  have accepted : OptionNumber.condition.accepts (.bytes c.encode) = .ok () := rfl
  have pieces : OptionNumber.condition.pieces (.bytes c.encode) = .ok [c.encode] :=
    if_neg (Nat.not_lt_of_le c.encode_length.2)
  have repeats : OptionNumber.condition.repeatable = true := by decide
  rw [show p.edited (.addCondition c.encode) = _ from addOption_eq ..] at refused
  simp only [accepted, pieces, repeats, bind, Except.bind, Bool.not_true, Bool.false_and,
    Bool.false_eq_true, if_false] at refused
  rw [h.splice_eq] at refused
  split at refused
  · cases refused
  · cases refused
    rfl

end Packet

/-- A condition takes one to five bytes at the front of a buffer, and is read back from them.
Whatever is read has a known kind and format and at most four bytes of threshold; it is written the
same but for zeros in front of the threshold. In no packet is a written condition refused for its
length; once added it stays behind the conditions before it, whatever else is added or set. -/
theorem conditions_coded :
    (∀ (c : Condition) buffer, 5 ≤ buffer.length →
      c.Writes buffer (c.write buffer).1 (c.write buffer).2 ∧
        Condition.parse? ((c.write buffer).1.take (c.write buffer).2) = some c) ∧
    (∀ bytes, (Condition.parse? bytes).isSome = true ↔ 1 ≤ bytes.length ∧ bytes.length ≤ 5 ∧
      ∀ head ∈ bytes.head?, head >>> 3 ≤ 9 ∧ head &&& 3 ≤ 2) ∧
    (∀ bytes c, Condition.parse? bytes = some c → ∀ buffer : List UInt8, 5 ≤ buffer.length →
      (c.write buffer).1.take (c.write buffer).2 =
        bytes.take 1 ++ (bytes.drop 1).dropWhile (· == 0)) ∧
    ∀ capacity edits (c : Condition) (buffer : List UInt8), 5 ≤ buffer.length →
      let raw := (c.write buffer).1.take (c.write buffer).2
      let p := Packet.reach capacity edits
      (∀ e, p.edited (.addCondition raw) = .error e → e = .noRoom) ∧
        ∀ q, p.edited (.addCondition raw) = .ok q → ∀ further : List PacketEdit,
          (∀ e ∈ further, ¬ e.Overrides .condition) → ∃ added,
            (further.foldl Packet.edit q).conditions = p.conditions ++ raw :: added := by
  refine ⟨fun c buffer room => ?_, fun bytes => ?_, fun bytes c read buffer room => ?_,
    fun capacity edits c buffer room => ?_⟩
  · have writes := c.writes_front room
    refine ⟨writes, ?_⟩
    rw [writes.front]
    exact c.parse?_encode
  · cases bytes with
    | nil => simp [Condition.parse?]
    | cons head value =>
      rw [Condition.parse?_cons_isSome]
      simp [Nat.lt_succ_iff]
  · rw [(c.writes_front room).front]
    cases bytes with
    | nil => cases read
    | cons head value => exact Condition.encode_of_parse? read
  · intro raw p
    have written : raw = c.encode := (c.writes_front room).front
    have h := Packet.reach_canonical capacity edits
    refine ⟨fun e refused => h.addCondition_error c (written ▸ refused), ?_⟩
    intro q done further spare
    have left := h.addOption_leaves done
    obtain ⟨added, kept⟩ := left.canonical.edits_keep (by decide) spare
    refine ⟨added, ?_⟩
    rw [left.segments] at kept
    simpa [Packet.conditions, OptionNumber.written] using kept.symm

/-- A step of 300 with zeros in front is read and written without them. In a packet it keeps its
place when a token is set and another condition added. -/
theorem conditions_coded_padded :
    let c : Condition := ⟨.step, true, .integer, 300⟩
    let padded : List UInt8 := [0x24, 0, 0, 1, 0x2C]
    let buffer : List UInt8 := List.replicate 5 0xFF
    let raw := (c.write buffer).1.take (c.write buffer).2
    let further := [PacketEdit.setToken ⟨[1, 2], by decide⟩, .addCondition [0x48]]
    let p := Packet.reach 128 [.addCondition [0x08]]
    5 ≤ buffer.length ∧ Condition.parse? padded = some c ∧ raw = [0x24, 1, 0x2C] ∧
      (c.write buffer).1 = [0x24, 1, 0x2C, 0xFF, 0xFF] ∧ Condition.parse? raw = some c ∧
      (∀ e ∈ further, ¬ e.Overrides .condition) ∧
      ∃ q, p.edited (.addCondition raw) = .ok q ∧
        ∃ added, (further.foldl Packet.edit q).conditions = [0x08] :: raw :: added := by
  intro c padded buffer raw further p
  obtain ⟨writes, -, trims, adds⟩ := conditions_coded
  have room : 5 ≤ buffer.length := by decide
  have read : Condition.parse? padded = some c := by decide
  have spare : ∀ e ∈ further, ¬ e.Overrides .condition := by
    intro e member
    rcases List.mem_pair.mp member with rfl | rfl
    · change OptionNumber.token ≠ .condition
      decide
    · exact id
  have before : p.conditions = [[0x08]] := by decide +kernel
  have accepted : ((p.edited (.addCondition raw)).toOption).isSome = true := by decide +kernel
  refine ⟨room, read, trims padded c read buffer room, by decide, (writes c buffer room).2, spare,
    ?_⟩
  cases done : p.edited (.addCondition raw) with
  | error e =>
    rw [done] at accepted
    cases accepted
  | ok q =>
    obtain ⟨added, kept⟩ :=
      (adds 128 [.addCondition [0x08]] c buffer room).2 q done further spare
    exact ⟨q, rfl, added, by rw [kept, before]; rfl⟩

end CoapNode
