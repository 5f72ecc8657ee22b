import CoapNode.Packet
import Mathlib
/-! What the option encoding writes, and that reading it back gives the same options.
Fenceposts are options like any other here: `encodeRaw` writes a list as it stands. -/
namespace CoapNode

/-- Options written one after the other, each with its distance from the one before. -/
def encodeRaw (current : Nat) : List VisibleOption → List UInt8
  | [] => []
  | o :: rest => encodeOption (o.number - current) o.value ++ encodeRaw o.number rest

def lastNumber (current : Nat) : List VisibleOption → Nat
  | [] => current
  | o :: rest => lastNumber o.number rest

/-- Every distance and every length can be encoded, and no header is the end marker. -/
def Encodable (current : Nat) : List VisibleOption → Prop
  | [] => True
  | o :: rest =>
    (current ≤ o.number ∧ o.number ≤ 65535 ∧ o.value.length ≤ maxTextLength ∧
      needsFencepost (o.number - current) o.value.length = false) ∧ Encodable o.number rest

/-! ## Headers -/

theorem optionHeader_parts (delta length : Nat) (short : delta ≤ 15) (fits : length ≤ 15) :
    (optionHeader delta length >>> 4).toNat = delta ∧
      (optionHeader delta length &&& 15).toNat = length := by
  have table : ∀ d l : Fin 16, (optionHeader d.val l.val >>> 4).toNat = d.val ∧
      (optionHeader d.val l.val &&& 15).toNat = l.val := by decide +kernel
  exact table ⟨delta, by omega⟩ ⟨length, by omega⟩

theorem optionHeader_eq_endOfOptions (delta length : Nat) (short : delta ≤ 15)
    (fits : length ≤ 15) (marker : optionHeader delta length = endOfOptions) :
    delta = 15 ∧ length = 0 := by
  have parts := optionHeader_parts delta length short fits
  rw [marker] at parts
  exact ⟨parts.1.symm, parts.2.symm⟩

theorem needsFencepost_eq_false {delta length : Nat} :
    needsFencepost delta length = false ↔ delta < 15 ∨ delta = 15 ∧ length ≠ 0 := by
  rw [← Bool.not_eq_true, needsFencepost]
  simp only [Bool.or_eq_true, decide_eq_true_eq, Bool.and_eq_true, beq_iff_eq]
  omega

def headerOf (delta : Nat) (value : List UInt8) : UInt8 :=
  optionHeader delta (min value.length longLength)

theorem encodeOption_eq_cons (delta : Nat) (value : List UInt8) :
    encodeOption delta value = headerOf delta value :: (encodeOption delta value).tail := by
  unfold encodeOption headerOf
  split
  · next long => rw [Nat.min_eq_right long]; rfl
  · next short => rw [Nat.min_eq_left (Nat.le_of_not_le short)]; rfl

theorem headerOf_ne_endOfOptions {delta : Nat} {value : List UInt8}
    (reach : needsFencepost delta value.length = false) :
    headerOf delta value ≠ endOfOptions := by
  intro marker
  rw [needsFencepost_eq_false] at reach
  have := optionHeader_eq_endOfOptions delta _ (by omega) (Nat.min_le_right _ _) marker
  omega

theorem encodeOption_length (delta : Nat) (value : List UInt8) :
    (encodeOption delta value).length = measureOption value.length := by
  by_cases long : longLength ≤ value.length <;> simp [encodeOption, measureOption, long]

/-! ## Reading an option back -/

theorem cut_append (header : UInt8) (value rest : List UInt8) :
    RawOption.cut header value.length (value ++ rest) =
      some ⟨(header >>> 4).toNat, value, rest⟩ := by
  simp [RawOption.cut]

theorem read?_encodeOption (delta : Nat) (value rest : List UInt8) (short : delta ≤ 15)
    (fits : value.length ≤ maxTextLength) :
    RawOption.read? (encodeOption delta value ++ rest) = some ⟨delta, value, rest⟩ := by
  unfold encodeOption
  split
  · next long =>
    obtain ⟨high, low⟩ := optionHeader_parts delta longLength short (by decide)
    have extra : (UInt8.ofNat (value.length - longLength)).toNat + longLength = value.length := by
      simp only [longLength, maxTextLength] at *
      rw [UInt8.toNat_ofNat', Nat.mod_eq_of_lt (by omega)]
      omega
    simp only [List.cons_append, RawOption.read?, low, if_true, extra]
    rw [cut_append, high]
  · next notLong =>
    have low15 : value.length ≤ 15 := by simp only [longLength] at notLong; omega
    obtain ⟨high, low⟩ := optionHeader_parts delta value.length short low15
    have plain : ¬ value.length = longLength := by omega
    simp only [List.cons_append, RawOption.read?, low, if_neg plain]
    rw [cut_append, high]

/-- Where the options of a list lie when they are written from `start` on. -/
def layOut (start : Nat) : List VisibleOption → List OptionEntry
  | [] => []
  | o :: rest =>
    ⟨start, start + measureOption o.value.length, o.number, o.value⟩ ::
      layOut (start + measureOption o.value.length) rest

theorem walkOptions_encodeRaw (start current : Nat) (options : List VisibleOption)
    (encodable : Encodable current options) :
    walkOptions start current (encodeRaw current options) = layOut start options := by
  induction options generalizing start current with
  | nil => rw [walkOptions]; simp [encodeRaw, layOut, RawOption.read?]
  | cons o rest ih =>
    obtain ⟨⟨ascends, small, fits, reach⟩, tail⟩ := encodable
    have short : o.number - current ≤ 15 := by
      rw [needsFencepost_eq_false] at reach; lia
    have number : advanceNumber current (o.number - current) = o.number := by
      unfold advanceNumber; lia
    have read : RawOption.read? (encodeRaw current (o :: rest)) =
        some ⟨o.number - current, o.value, encodeRaw o.number rest⟩ :=
      read?_encodeOption _ _ _ short fits
    have stop : start + ((encodeRaw current (o :: rest)).length -
        (encodeRaw o.number rest).length) = start + measureOption o.value.length := by
      simp [encodeRaw, encodeOption_length]
    rw [walkOptions]
    split
    · next none => rw [read] at none; cases none
    · next found =>
      rw [read] at found
      cases found
      simp only [number, stop, layOut]
      rw [ih _ _ tail]

/-! ## Lists one after the other -/

@[simp] theorem lastNumber_append (current : Nat) (xs ys : List VisibleOption) :
    lastNumber current (xs ++ ys) = lastNumber (lastNumber current xs) ys := by
  induction xs generalizing current with
  | nil => rfl
  | cons o xs ih => exact ih _

theorem encodeRaw_append (current : Nat) (xs ys : List VisibleOption) :
    encodeRaw current (xs ++ ys) =
      encodeRaw current xs ++ encodeRaw (lastNumber current xs) ys := by
  induction xs generalizing current with
  | nil => rfl
  | cons o xs ih => simp [encodeRaw, lastNumber, ih]

theorem encodable_append (current : Nat) (xs ys : List VisibleOption) :
    Encodable current (xs ++ ys) ↔ Encodable current xs ∧ Encodable (lastNumber current xs) ys := by
  induction xs generalizing current with
  | nil => simp [Encodable, lastNumber]
  | cons o xs ih => simp [Encodable, lastNumber, ih, and_assoc]

theorem layOut_append (start current : Nat) (xs ys : List VisibleOption) :
    layOut start (xs ++ ys) =
      layOut start xs ++ layOut (start + (encodeRaw current xs).length) ys := by
  induction xs generalizing start current with
  | nil => simp [layOut, encodeRaw]
  | cons o xs ih =>
    simp only [List.cons_append, layOut, encodeRaw, List.length_append, encodeOption_length]
    rw [ih _ o.number, Nat.add_assoc]

theorem layOut_length (start : Nat) (options : List VisibleOption) :
    (layOut start options).length = options.length := by
  induction options generalizing start with
  | nil => rfl
  | cons o rest ih => simp [layOut, ih]

theorem layOut_map (start : Nat) (options : List VisibleOption) :
    (layOut start options).map (fun e => VisibleOption.mk e.number e.value) = options := by
  induction options generalizing start with
  | nil => rfl
  | cons o rest ih => simp [layOut, ih]

end CoapNode
