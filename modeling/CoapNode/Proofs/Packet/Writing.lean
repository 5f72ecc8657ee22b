import CoapNode.Proofs.Packet.RoundTrip
/-! Writing a packet into a buffer. The parts of its datagram are copied one behind the other, each
to the place where the one before ended. A copy has to find its place, and the last one has to end
where the length announced at first ends; that no buffer and no packet lets a copy fail is what
makes the length exact. -/
namespace CoapNode

/-! ## Copying -/

/-- Copies bytes into a buffer from this place on; `none` if they run over its end. -/
def copyAt (buffer : List UInt8) (place : Nat) (bytes : List UInt8) : Option (List UInt8) :=
  if place + bytes.length ≤ buffer.length then
    some (buffer.take place ++ bytes ++ buffer.drop (place + bytes.length))
  else none

/-- Copies parts one behind the other, and tells where the last one ends. -/
def copyParts (buffer : List UInt8) (place : Nat) : List (List UInt8) → Option (List UInt8 × Nat)
  | [] => some (buffer, place)
  | part :: rest => (copyAt buffer place part).bind (copyParts · (place + part.length) rest)

theorem copyAt_of_room {front bytes rest : List UInt8} (room : bytes.length ≤ rest.length) :
    copyAt (front ++ rest) front.length bytes =
      some ((front ++ bytes) ++ rest.drop bytes.length) := by
  have inside : front.length + bytes.length ≤ (front ++ rest).length := by
    rw [List.length_append]
    omega
  rw [copyAt, if_pos inside, List.take_left, ← List.drop_drop, List.drop_left]

/-- What was copied stands still while the next parts are copied behind it. -/
theorem copyParts_of_room (front : List UInt8) {rest : List UInt8} {parts : List (List UInt8)}
    (room : parts.flatten.length ≤ rest.length) :
    copyParts (front ++ rest) front.length parts =
      some (front ++ parts.flatten ++ rest.drop parts.flatten.length,
        front.length + parts.flatten.length) := by
  induction parts generalizing front rest with
  | nil => simp [copyParts]
  | cons part parts ih =>
    rw [List.flatten_cons, List.length_append] at room
    have first : part.length ≤ rest.length := by omega
    have later : parts.flatten.length ≤ (rest.drop part.length).length := by
      rw [List.length_drop]
      omega
    have next := ih (front ++ part) later
    rw [List.length_append] at next
    rw [copyParts, copyAt_of_room first, Option.bind_some, next, List.flatten_cons,
      List.length_append, List.drop_drop, List.append_assoc front, Nat.add_assoc]

namespace Packet

variable {capacity : Nat} {p : Packet capacity}

/-! ## A packet's parts -/

def parts (p : Packet capacity) : List (List UInt8) :=
  [[(p.version <<< 6) ||| (p.kind.number <<< 4) ||| p.statedCount, p.code.toByte], p.id.toBytes,
    p.region, if p.needsEndMarker then [endOfOptions] else [], p.payload]

theorem flatten_parts (p : Packet capacity) : p.parts.flatten = p.datagram := by
  simp [parts, datagram]

/-- Copies a packet into the front of a buffer, and tells the caller how much that was; `none` if a
copy does not find its place. A buffer that is too small is left alone. -/
def copyInto (p : Packet capacity) (buffer : List UInt8) :
    Option (List UInt8 × Except CodecError Nat) :=
  if p.serializedLength ≤ buffer.length then
    (copyParts (buffer.take p.serializedLength) 0 p.parts).bind fun copied =>
      if copied.2 = copied.1.length then
        some (copied.1 ++ buffer.drop p.serializedLength, .ok p.serializedLength)
      else none
  else some (buffer, .error .noRoom)

/-- All of the packet was written, or nothing. The bytes behind it are as before. -/
structure Writes (p : Packet capacity) (buffer after : List UInt8)
    (result : Except CodecError Nat) : Prop where
  succeeds : (∃ n, result = .ok n) ↔ p.serializedLength ≤ buffer.length
  written : ∀ n, result = .ok n → n = p.serializedLength ∧ n = p.datagram.length ∧
    after = p.datagram ++ buffer.drop n
  untouched : ∀ e, result = .error e → e = .noRoom ∧ after = buffer
  same : p.serialize buffer = result.map fun n => (after, n)

theorem copyInto_writes (p : Packet capacity) (buffer : List UInt8) :
    ∃ after result, p.copyInto buffer = some (after, result) ∧ p.Writes buffer after result := by
  by_cases room : p.serializedLength ≤ buffer.length
  case neg =>
    refine ⟨buffer, .error .noRoom, if_neg room, ?_⟩
    exact {
      succeeds := ⟨by simp, fun enough => absurd enough room⟩
      written := by simp
      untouched := by
        rintro e ⟨⟩
        exact ⟨rfl, rfl⟩
      same := if_neg room }
  have taken : (buffer.take p.serializedLength).length = p.serializedLength :=
    List.length_take_of_le room
  have size : p.parts.flatten.length = p.serializedLength := by
    rw [flatten_parts, datagram_length]
  have enough : p.parts.flatten.length ≤ (buffer.take p.serializedLength).length := by omega
  have copied := copyParts_of_room [] enough
  have filled : (buffer.take p.serializedLength).drop p.serializedLength = [] :=
    List.drop_eq_nil_of_le (Nat.le_of_eq taken)
  rw [size, filled, flatten_parts, List.append_nil, List.nil_append, List.nil_append,
    List.length_nil, Nat.zero_add] at copied
  refine ⟨p.datagram ++ buffer.drop p.serializedLength, .ok p.serializedLength, ?_, ?_⟩
  · rw [copyInto, if_pos room, copied, Option.bind_some, if_pos p.datagram_length.symm]
  · exact {
      succeeds := ⟨fun _ => room, fun _ => ⟨_, rfl⟩⟩
      written := by
        rintro n ⟨⟩
        exact ⟨rfl, p.datagram_length.symm, rfl⟩
      untouched := by simp
      same := if_pos room }

/-- Options and payload share the arena; the header and the marker stand outside. -/
theorem Canonical.serializedLength_le (h : p.Canonical) :
    p.serializedLength ≤ headerLength + capacity + 1 := by
  have room := h.room
  have marker := p.needsEndMarker.toNat_le
  rw [serializedLength]
  omega

end Packet
end CoapNode
