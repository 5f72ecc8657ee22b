import CoapNode.Proofs.Packet.Reading
import CoapNode.Proofs.Packet.Refinement
/-! Delimited text in options. It is stored as one occurrence for each of its segments and read
back as those segments joined. Every segment costs at least the byte that the delimiter before it
takes, so a packet no larger than the text buffer holds no text that the buffer has no room
for. -/
namespace CoapNode

/-! ## Segments -/

/-- What stands between the delimiters of a text, where something does. -/
def segmentsOf (delimiter : Char) (chars : List Char) : List (List Char) :=
  (chars.splitOn delimiter).filter (· ≠ [])

section

variable {d : Char}

/-- A delimiter separates: everything about segments follows from this. -/
theorem segmentsOf_append (d : Char) (front back : List Char) :
    segmentsOf d (front ++ d :: back) = segmentsOf d front ++ segmentsOf d back := by
  rw [segmentsOf, List.splitOn_append_cons_self, List.filter_append]
  rfl

theorem segmentsOf_dropWhile (d : Char) (chars : List Char) :
    segmentsOf d (chars.dropWhile (· == d)) = segmentsOf d chars := by
  induction chars with
  | nil => rfl
  | cons c rest ih =>
    by_cases same : c = d
    · have skipped : segmentsOf d (d :: rest) = segmentsOf d rest := segmentsOf_append d [] rest
      rw [same, List.dropWhile_cons_of_pos (by simp), ih, skipped]
    · rw [List.dropWhile_cons_of_neg (by simpa using same)]

theorem not_mem_of_mem_splitOn {chars piece : List Char} (member : piece ∈ chars.splitOn d) :
    d ∉ piece := by
  induction chars generalizing piece with
  | nil =>
    rw [List.splitOn_nil, List.mem_singleton] at member
    simp [member]
  | cons c rest ih =>
    obtain ⟨first, others, split⟩ := List.exists_cons_of_ne_nil (List.splitOn_ne_nil d rest)
    rw [List.splitOn_cons_eq_if_modifyHead, split] at member
    rw [split] at ih
    split at member
    · rcases List.mem_cons.mp member with rfl | member
      · exact List.not_mem_nil
      · exact ih member
    · next other =>
      rcases List.mem_cons.mp member with rfl | member
      · have apart : d ≠ c := fun same => other (by simp [same])
        rw [List.mem_cons, not_or]
        exact ⟨apart, ih (List.mem_cons_self ..)⟩
      · exact ih (List.mem_cons_of_mem first member)

/-- What segments are: not empty, and no delimiter in them. -/
def Clean (d : Char) (segments : List (List Char)) : Prop :=
  ∀ segment ∈ segments, segment ≠ [] ∧ d ∉ segment

theorem segmentsOf_clean (d : Char) (chars : List Char) : Clean d (segmentsOf d chars) := by
  intro segment member
  obtain ⟨piece, filled⟩ := List.mem_filter.mp member
  exact ⟨by simpa using filled, not_mem_of_mem_splitOn piece⟩

theorem segmentsOf_intercalate {segments : List (List Char)} (clean : Clean d segments) :
    segmentsOf d ([d].intercalate segments) = segments := by
  cases segments with
  | nil => rfl
  | cons first rest =>
    rw [segmentsOf, List.splitOn_intercalate d (fun segment member => (clean segment member).2)
      (by simp), List.filter_eq_self]
    intro segment member
    simpa using (clean segment member).1

theorem intercalate_segmentsOf {chars : List Char} (whole : [] ∉ chars.splitOn d) :
    [d].intercalate (segmentsOf d chars) = chars := by
  have all : segmentsOf d chars = chars.splitOn d := by
    rw [segmentsOf, List.filter_eq_self]
    intro piece member
    simpa using ne_of_mem_of_not_mem member whole
  rw [all, List.intercalate_splitOn]

theorem pathPieces_eq (d : Char) (s : String) :
    pathPieces d s = (segmentsOf d s.toList).map String.ofList := by
  rw [pathPieces, splitPieces_eq, segmentsOf]

end

/-! ## Writing texts -/

theorem textOf?_textBytes (s : String) : textOf? (textBytes s) = some s := by
  have bytes : (⟨(textBytes s).toArray⟩ : ByteArray) = s.toByteArray := rfl
  rw [textOf?, bytes, String.fromUTF8?, dif_pos s.isValidUTF8]
  rfl

theorem textBytes_of_textOf? {bytes : List UInt8} {s : String} (text : textOf? bytes = some s) :
    textBytes s = bytes := by
  unfold textOf? String.fromUTF8? at text
  split at text
  · cases text
    rfl
  · cases text

theorem textBytes_injective {s t : String} (same : textBytes s = textBytes t) : s = t := by
  have read := textOf?_textBytes t
  rw [← same, textOf?_textBytes] at read
  exact Option.some.inj read

theorem textBytes_length (s : String) : (textBytes s).length = s.utf8ByteSize := rfl

theorem intercalate_size (separator first : String) (rest : List String) :
    (separator.intercalate (first :: rest)).utf8ByteSize =
      first.utf8ByteSize + (rest.map fun s => separator.utf8ByteSize + s.utf8ByteSize).sum := by
  induction rest generalizing first with
  | nil => simp
  | cons second rest ih =>
    rw [String.intercalate_cons_cons, String.utf8ByteSize_append, String.utf8ByteSize_append, ih,
      List.map_cons, List.sum_cons]
    omega

theorem writeWithin_iff {size : Nat} {written piece whole : String} :
    writeWithin (some size) written piece = some whole ↔
      (written ++ piece).utf8ByteSize ≤ size ∧ whole = written ++ piece := by
  rw [String.utf8ByteSize_append]
  simp [writeWithin, eq_comm]

theorem writeSegments_texts {size : Nat} (lead : String) {written : String} {texts : List String}
    (fits : (lead.intercalate (written :: texts)).utf8ByteSize ≤ size) :
    writeSegments (some size) written (texts.map fun s => (lead, textBytes s)) =
      (lead.intercalate (written :: texts), .ok ()) := by
  induction texts generalizing written with
  | nil => simp [writeSegments]
  | cons s rest ih =>
    have onward : lead.intercalate (written :: s :: rest) =
        lead.intercalate ((written ++ lead ++ s) :: rest) := by
      rw [String.intercalate_cons_cons, String.intercalate_cons_append]
    rw [onward] at fits
    have room := fits
    rw [intercalate_size, String.utf8ByteSize_append] at room
    have led : writeWithin (some size) written lead = some (written ++ lead) :=
      writeWithin_iff.mpr ⟨by omega, rfl⟩
    have taken : writeWithin (some size) (written ++ lead) s = some (written ++ lead ++ s) :=
      writeWithin_iff.mpr ⟨by rw [String.utf8ByteSize_append]; omega, rfl⟩
    simp only [List.map_cons, writeSegments, led, textOf?_textBytes, taken]
    rw [ih fits, onward]

theorem writeSegments_full {size : Nat} (lead : String) {written : String} {texts : List String}
    (begun : written.utf8ByteSize ≤ size)
    (long : size < (lead.intercalate (written :: texts)).utf8ByteSize) :
    (writeSegments (some size) written (texts.map fun s => (lead, textBytes s))).2 =
      .error .noRoom := by
  induction texts generalizing written with
  | nil =>
    rw [String.intercalate_singleton] at long
    omega
  | cons s rest ih =>
    simp only [List.map_cons, writeSegments, textOf?_textBytes]
    cases led : writeWithin (some size) written lead with
    | none => rfl
    | some onward =>
      simp only
      cases taken : writeWithin (some size) onward s with
      | none => rfl
      | some whole =>
        obtain ⟨-, rfl⟩ := writeWithin_iff.mp led
        obtain ⟨fits, rfl⟩ := writeWithin_iff.mp taken
        rw [String.intercalate_cons_cons, ← String.intercalate_cons_append] at long
        exact ih fits long

/-- Writing fails for want of room, or at a segment that is no text. -/
theorem writeSegments_cases (limit : Option Nat) (written : String)
    (segments : List (String × List UInt8)) :
    (∃ texts : List String, segments.map (·.2) = texts.map textBytes) ∨
      (writeSegments limit written segments).2 = .error .noRoom ∨
      (writeSegments limit written segments).2 = .error .invalidUtf8 := by
  induction segments generalizing written with
  | nil => exact .inl ⟨[], rfl⟩
  | cons segment rest ih =>
    obtain ⟨lead, bytes⟩ := segment
    unfold writeSegments
    split
    · exact .inr (.inl rfl)
    split
    · exact .inr (.inr rfl)
    next piece text =>
    split
    · exact .inr (.inl rfl)
    next whole _ =>
    refine (ih whole).imp_left ?_
    rintro ⟨texts, same⟩
    exact ⟨piece :: texts, by rw [List.map_cons, List.map_cons, same, textBytes_of_textOf? text]⟩

theorem writeSegments_room {size : Nat} {written : String} {segments : List (String × List UInt8)}
    (room : written.utf8ByteSize + (segments.map fun s => s.1.utf8ByteSize + s.2.length).sum ≤
      size) : (writeSegments (some size) written segments).2 ≠ .error .noRoom := by
  induction segments generalizing written with
  | nil => simp [writeSegments]
  | cons segment rest ih =>
    obtain ⟨lead, bytes⟩ := segment
    simp only [List.map_cons, List.sum_cons] at room
    have led : writeWithin (some size) written lead = some (written ++ lead) :=
      writeWithin_iff.mpr ⟨by rw [String.utf8ByteSize_append]; omega, rfl⟩
    simp only [writeSegments, led]
    cases text : textOf? bytes with
    | none => simp
    | some piece =>
      have length : piece.utf8ByteSize = bytes.length := by
        rw [← textBytes_of_textOf? text, textBytes_length]
      have grown : (written ++ lead ++ piece).utf8ByteSize =
          written.utf8ByteSize + lead.utf8ByteSize + bytes.length := by
        rw [String.utf8ByteSize_append, String.utf8ByteSize_append, length]
      have taken : writeWithin (some size) (written ++ lead) piece =
          some (written ++ lead ++ piece) := writeWithin_iff.mpr ⟨by omega, rfl⟩
      simp only [taken]
      exact ih (by omega)

def OptionNumber.separator (n : OptionNumber) : String := n.delimiter.elim "" String.singleton

theorem OptionNumber.separator_size (n : OptionNumber) : n.separator.utf8ByteSize ≤ 1 := by
  unfold separator delimiter
  split
  · decide
  · split <;> decide

theorem writeSegments_joined {size : Nat} (n : OptionNumber) {texts : List String}
    (fits : (n.separator.intercalate texts).utf8ByteSize ≤ size) :
    writeSegments (some size) "" (leadSegments n.delimiter (texts.map textBytes)) =
      (n.separator.intercalate texts, .ok ()) := by
  cases texts with
  | nil => simp [leadSegments, writeSegments]
  | cons first rest =>
    have room := fits
    rw [intercalate_size] at room
    have taken : writeWithin (some size) "" first = some first := by
      rw [writeWithin, if_pos (by simp; omega), String.empty_append]
    have nothing : writeWithin (some size) "" "" = some "" := by simp [writeWithin]
    simp only [List.map_cons, leadSegments, List.map_map, writeSegments, nothing,
      textOf?_textBytes, taken]
    exact writeSegments_texts n.separator fits

theorem writeSegments_overlong {size : Nat} (n : OptionNumber) {texts : List String}
    (long : size < (n.separator.intercalate texts).utf8ByteSize) :
    (writeSegments (some size) "" (leadSegments n.delimiter (texts.map textBytes))).2 =
      .error .noRoom := by
  cases texts with
  | nil => simp at long
  | cons first rest =>
    have nothing : writeWithin (some size) "" "" = some "" := by simp [writeWithin]
    simp only [List.map_cons, leadSegments, List.map_map, writeSegments, nothing,
      textOf?_textBytes]
    cases taken : writeWithin (some size) "" first with
    | none => rfl
    | some written =>
      obtain ⟨begun, same⟩ := writeWithin_iff.mp taken
      rw [String.empty_append] at begun same
      rw [same]
      exact writeSegments_full n.separator begun long

theorem leadSegments_segments (d : Option Char) (segments : List (List UInt8)) :
    (leadSegments d segments).map (·.2) = segments := by
  cases segments with
  | nil => rfl
  | cons first rest => simp [leadSegments, Function.comp_def]

theorem leadSegments_size (n : OptionNumber) (segments : List (List UInt8)) :
    ((leadSegments n.delimiter segments).map fun s => s.1.utf8ByteSize + s.2.length).sum ≤
      (segments.map fun b => b.length + 1).sum := by
  cases segments with
  | nil => exact Nat.le_refl _
  | cons first rest =>
    have short := n.separator_size
    unfold OptionNumber.separator at short
    have others : (rest.map fun b => (n.delimiter.elim "" String.singleton).utf8ByteSize +
        b.length).sum ≤ (rest.map fun b => b.length + 1).sum := by
      apply List.sum_le_sum
      intro b _
      omega
    simp only [leadSegments, List.map_cons, List.sum_cons, List.map_map, Function.comp_def]
    have blank : ("" : String).utf8ByteSize = 0 := rfl
    omega

/-! ## Text in packets -/

theorem values_length_le (current : Nat) (options : List VisibleOption) :
    (options.map fun o => o.value.length + 1).sum ≤ (encodeOptions current options).length := by
  induction options generalizing current with
  | nil => exact Nat.le_refl _
  | cons o rest ih =>
    have later := ih o.number
    have header : o.value.length + 1 ≤ measureOption o.value.length := by
      unfold measureOption
      split <;> omega
    rw [List.map_cons, List.sum_cons, encodeOptions_cons_length]
    omega

/-- Joined by at most a byte, texts need less room than as options. -/
theorem joined_size_le (separator : String) (short : separator.utf8ByteSize ≤ 1)
    (texts : List String) :
    (separator.intercalate texts).utf8ByteSize ≤ (texts.map fun s => s.utf8ByteSize + 1).sum := by
  cases texts with
  | nil => simp
  | cons first rest =>
    have others : (rest.map fun s => separator.utf8ByteSize + s.utf8ByteSize).sum ≤
        (rest.map fun s => s.utf8ByteSize + 1).sum := by
      apply List.sum_le_sum
      intro s _
      omega
    rw [intercalate_size, List.map_cons, List.sum_cons]
    omega

namespace Packet

variable {capacity : Nat} {p q : Packet capacity} {n : OptionNumber}

theorem Canonical.segments_room (h : p.Canonical) (visible : isFencepost n = false) :
    ((p.segments n).map fun b => b.length + 1).sum ≤ capacity := by
  have sublist : (optionsAt n p.options).Sublist p.options := List.filter_sublist
  have fewer := encodeOptions_sublist sublist h.lawful.small 0
  have taken := values_length_le 0 (optionsAt n p.options)
  have room := h.room
  rw [h.region] at room
  rw [h.segments_eq visible, List.map_map]
  calc ((optionsAt n p.options).map fun o => o.value.length + 1).sum
      ≤ (encodeOptions 0 (optionsAt n p.options)).length := taken
    _ ≤ capacity := by omega

theorem Canonical.joined_le (h : p.Canonical) (visible : isFencepost n = false)
    {texts : List String} (stored : p.segments n = texts.map textBytes) :
    (n.separator.intercalate texts).utf8ByteSize ≤ capacity := by
  have room := h.segments_room visible
  rw [stored, List.map_map] at room
  exact Nat.le_trans (joined_size_le _ n.separator_size texts) room

/-- Stored texts are read joined, if the buffer has room for that. -/
theorem Canonical.textOrEmpty_texts (h : p.Canonical) (known : n.known = true)
    (visible : isFencepost n = false) (format : n.format = .text) {texts : List String}
    (stored : p.segments n = texts.map textBytes) :
    p.textOrEmpty n =
      if (n.separator.intercalate texts).utf8ByteSize ≤ textBuffer then
        .ok (n.separator.intercalate texts)
      else .error .noRoom := by
  have set := h.isSet_eq known visible
  have filled : (optionsAt n p.options).isEmpty = texts.isEmpty := by
    have same := congrArg List.isEmpty ((h.segments_eq visible).symm.trans stored)
    simpa using same
  rw [filled] at set
  cases texts with
  | nil => simp [textOrEmpty, readText, checkFormat, known, format, set]
  | cons first rest =>
    have check : p.checkFormat n .text = .ok () := by simp [checkFormat, known, format, set]
    simp only [textOrEmpty, readText, check, stored]
    by_cases fits : (n.separator.intercalate (first :: rest)).utf8ByteSize ≤ textBuffer
    · rw [if_pos fits, writeSegments_joined n fits]
    · rw [if_neg fits]
      have full := writeSegments_overlong n (Nat.lt_of_not_le fits)
      generalize writeSegments _ _ _ = written at full ⊢
      obtain ⟨front, outcome⟩ := written
      cases full
      rfl

theorem Canonical.textOrEmpty_eq (h : p.Canonical) (small : capacity ≤ textBuffer)
    (known : n.known = true) (visible : isFencepost n = false) (format : n.format = .text)
    {texts : List String} (stored : p.segments n = texts.map textBytes) :
    p.textOrEmpty n = .ok (n.separator.intercalate texts) := by
  rw [h.textOrEmpty_texts known visible format stored,
    if_pos (Nat.le_trans (h.joined_le visible stored) small)]

theorem Canonical.texts_of_textOrEmpty (h : p.Canonical) (known : n.known = true)
    (visible : isFencepost n = false) (format : n.format = .text) {t : String}
    (read : p.textOrEmpty n = .ok t) :
    ∃ texts : List String, p.segments n = texts.map textBytes := by
  have set := h.isSet_eq known visible
  cases listed : optionsAt n p.options with
  | nil => exact ⟨[], by rw [h.segments_eq visible, listed]; rfl⟩
  | cons o rest =>
    rw [listed] at set
    have check : p.checkFormat n .text = .ok () := by simp [checkFormat, known, format, set]
    simp only [textOrEmpty, readText, check] at read
    rcases writeSegments_cases (some textBuffer) "" (leadSegments n.delimiter (p.segments n)) with
      whole | full | unreadable
    · rwa [leadSegments_segments] at whole
    · split at read <;> simp_all
    · split at read <;> simp_all

/-- A packet no larger than the text buffer holds no text, well-formed or not, that the buffer has
no room for. -/
theorem Canonical.readText_room (h : p.Canonical) (small : capacity ≤ textBuffer)
    (visible : isFencepost n = false) : (p.readText n (some textBuffer)).2 ≠ .error .noRoom := by
  unfold readText
  split
  · next e refused =>
    unfold checkFormat at refused
    repeat' split at refused
    all_goals cases refused
    all_goals simp
  · have sizes := leadSegments_size n (p.segments n)
    have room := h.segments_room visible
    apply writeSegments_room
    have blank : ("" : String).utf8ByteSize = 0 := rfl
    omega

theorem Canonical.textOrEmpty_room (h : p.Canonical) (small : capacity ≤ textBuffer)
    (visible : isFencepost n = false) : p.textOrEmpty n ≠ .error .noRoom := by
  have room := h.readText_room small visible
  unfold textOrEmpty
  split <;> simp_all

theorem Canonical.setPieces_segments (h : p.Canonical) {d : Char} {s : String}
    (visible : isFencepost n = false) (delimited : n.delimiter = some d)
    (done : p.edited (.setPieces n s) = .ok q) :
    q.segments n = (pathPieces d s).map textBytes := by
  rw [(h.setPieces done).segments_eq visible]
  rw [setPieces_eq] at done
  split at done
  · next empty =>
    obtain ⟨-, none⟩ := h.removeOption_content done
    have gone : s = "" := by simpa using empty
    rw [none, gone]
    rfl
  · obtain ⟨pieces, split, -, whole⟩ := h.setOption_content done
    obtain ⟨rfl, -⟩ := OptionNumber.pieces_iff.mp split
    rw [whole, occurrences, List.map_map]
    simp [Function.comp_def, OptionNumber.written, delimited, pathPieces_eq, segmentsOf]

end Packet
end CoapNode
