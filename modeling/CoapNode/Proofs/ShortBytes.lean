import CoapNode.ShortBytes
import Mathlib
/-! The bytes of a number are its digits to the base 256, the highest first, and reading them
gives the number back. -/
namespace CoapNode

def byteDigits (bytes : List UInt8) : List Nat := bytes.reverse.map UInt8.toNat

theorem byteDigits_lt {bytes : List UInt8} {digit : Nat} (member : digit ∈ byteDigits bytes) :
    digit < 256 := by
  obtain ⟨b, -, rfl⟩ := List.mem_map.mp member
  exact b.toNat_lt

theorem byteDigits_append (bytes : List UInt8) (b : UInt8) :
    byteDigits (bytes ++ [b]) = b.toNat :: byteDigits bytes := by
  simp [byteDigits]

theorem ofDigits_wordBytes (n : UInt32) :
    Nat.ofDigits 256 (byteDigits (wordBytes n)) = n.toNat := by
  have small : n.toNat < 2 ^ 32 := n.toNat_lt
  simp [byteDigits, wordBytes, Nat.ofDigits_cons, Nat.shiftRight_eq_div_pow]
  omega

theorem ofDigits_dropWhile (bytes : List UInt8) :
    Nat.ofDigits 256 (byteDigits (bytes.dropWhile (· == 0))) =
      Nat.ofDigits 256 (byteDigits bytes) := by
  induction bytes with
  | nil => rfl
  | cons b rest ih =>
    by_cases zero : b = 0
    · rw [List.dropWhile_cons_of_pos (by simpa using zero), ih]
      simp [byteDigits, zero, Nat.ofDigits_append]
    · rw [List.dropWhile_cons_of_neg (by simpa using zero)]

theorem ofDigits_minimalBytes (n : UInt32) :
    Nat.ofDigits 256 (byteDigits (minimalBytes n)) = n.toNat :=
  (ofDigits_dropWhile (wordBytes n)).trans (ofDigits_wordBytes n)

theorem digits_byteDigits (bytes : List UInt8) :
    Nat.digits 256 (Nat.ofDigits 256 (byteDigits bytes)) =
      byteDigits (bytes.dropWhile (· == 0)) := by
  rw [← ofDigits_dropWhile, Nat.digits_ofDigits 256 (by decide) _ fun _ => byteDigits_lt]
  intro written
  have front : bytes.dropWhile (· == 0) ≠ [] := by
    intro none
    simp [byteDigits, none] at written
  have first := List.head_dropWhile_not (fun b : UInt8 => b == 0) front
  simpa [byteDigits, ← UInt8.toNat_inj] using first

theorem byteDigits_minimalBytes (n : UInt32) :
    byteDigits (minimalBytes n) = Nat.digits 256 n.toNat := by
  rw [← ofDigits_wordBytes, digits_byteDigits]
  rfl

theorem bytes_of_byteDigits (bytes : List UInt8) :
    (byteDigits bytes).reverse.map UInt8.ofNat = bytes := by
  rw [byteDigits, ← List.map_reverse, List.reverse_reverse, List.map_map]
  simp [Function.comp_def]

theorem minimalBytes_eq (n : UInt32) :
    minimalBytes n = (Nat.digits 256 n.toNat).reverse.map UInt8.ofNat := by
  rw [← byteDigits_minimalBytes, bytes_of_byteDigits]

theorem bigEndian_append (bytes : List UInt8) (b : UInt8) :
    bigEndian (bytes ++ [b]) = (bigEndian bytes <<< 8) ||| b.toUInt32 := by
  simp [bigEndian]

theorem bigEndian_toNat {bytes : List UInt8} (short : bytes.length ≤ 4) :
    (bigEndian bytes).toNat = Nat.ofDigits 256 (byteDigits bytes) := by
  induction bytes using List.reverseRecOn with
  | nil => rfl
  | append_singleton bytes b ih =>
    rw [List.length_append, List.length_singleton] at short
    have value := ih (by omega)
    have small : Nat.ofDigits 256 (byteDigits bytes) < 256 ^ 3 := by
      refine Nat.lt_of_lt_of_le
        (Nat.ofDigits_lt_base_pow_length (by decide) fun _ => byteDigits_lt) ?_
      apply Nat.pow_le_pow_right (by decide)
      simp only [byteDigits, List.length_map, List.length_reverse]
      omega
    have low : b.toNat < 2 ^ 8 := b.toNat_lt
    rw [bigEndian_append, byteDigits_append, Nat.ofDigits_cons, ← value]
    rw [← value] at small
    have shifted : (bigEndian bytes <<< 8).toNat = (bigEndian bytes).toNat * 2 ^ 8 := by
      simp [Nat.shiftLeft_eq]; omega
    rw [UInt32.toNat_or, shifted, UInt8.toNat_toUInt32, ← Nat.mul_comm (2 ^ 8), 
      ← Nat.two_pow_add_eq_or_of_lt low]
    omega

theorem bigEndian_minimalBytes (n : UInt32) : bigEndian (minimalBytes n) = n := by
  rw [← UInt32.toNat_inj, bigEndian_toNat (ShortBytes.minimalBytes_length_le n),
    ofDigits_minimalBytes]

/-- What is stored of a number that was read are its bytes without the zeros in front. -/
theorem minimalBytes_bigEndian {bytes : List UInt8} (short : bytes.length ≤ 4) :
    minimalBytes (bigEndian bytes) = bytes.dropWhile (· == 0) := by
  rw [minimalBytes_eq, bigEndian_toNat short, digits_byteDigits, bytes_of_byteDigits]

theorem ShortBytes.eq_empty {t : ShortBytes} (none : t.isEmpty = true) : t = .empty := by
  obtain ⟨bytes, _⟩ := t
  simpa [isEmpty, empty] using none

end CoapNode
