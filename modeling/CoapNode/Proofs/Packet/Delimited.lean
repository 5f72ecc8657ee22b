import CoapNode.Proofs.Packet.Additions
import CoapNode.Proofs.Packet.Texts
/-! Paths and queries, set and read as one text. Setting one stores its pieces, reading one joins
them again. A path that was set reads as a text that sets the same path; of a path read from a
datagram that is so unless a slash stands inside a segment. -/
namespace CoapNode

/-- The delimited options that are set and read as one text. -/
inductive DelimitedField where
  | uriPath
  | locationPath
  | uriQuery

namespace DelimitedField

def number : DelimitedField → OptionNumber
  | uriPath => .uriPath
  | locationPath => .locationPath
  | uriQuery => .uriQuery

def delimiter : DelimitedField → Char
  | uriPath | locationPath => '/'
  | uriQuery => '&'

/-- What is left of a text without the characters that do not count at its front. -/
def trim : DelimitedField → String → String
  | uriPath | locationPath => trimSlashes
  | uriQuery => trimQuery

def isPath : DelimitedField → Bool
  | uriPath | locationPath => true
  | uriQuery => false

variable {capacity : Nat}

def get (p : Packet capacity) : DelimitedField → Except CodecError String
  | uriPath => p.uriPath
  | locationPath => p.locationPath
  | uriQuery => p.uriQuery

def set (p : Packet capacity) (s : String) : DelimitedField → Except CodecError (Packet capacity)
  | uriPath => p.edited (.setUriPath s)
  | locationPath => p.edited (.setLocationPath s)
  | uriQuery => p.edited (.setUriQuery s)

def pieces (f : DelimitedField) (s : String) : List String :=
  (segmentsOf f.delimiter (f.trim s).toList).map String.ofList

def join (f : DelimitedField) (texts : List String) : String :=
  (String.singleton f.delimiter).intercalate texts

/-- A packet's options with texts in place of what the field held. -/
def replaced (f : DelimitedField) (p : Packet capacity) (texts : List String) :
    List VisibleOption :=
  insertAfter f.number (occurrences f.number (texts.map textBytes)) (without f.number p.options)

/-! ## The option table -/

theorem known (f : DelimitedField) : f.number.known = true := by cases f <;> decide

theorem visible (f : DelimitedField) : isFencepost f.number = false := by cases f <;> decide

theorem format (f : DelimitedField) : f.number.format = .text := by cases f <;> decide

theorem maxLength (f : DelimitedField) : f.number.maxLength = maxTextLength := by
  cases f <;> decide

theorem delimited (f : DelimitedField) : f.number.delimiter = some f.delimiter := by
  cases f <;> decide

theorem separator (f : DelimitedField) : f.number.separator = String.singleton f.delimiter := by
  rw [OptionNumber.separator, f.delimited]
  rfl

theorem get_eq (f : DelimitedField) (p : Packet capacity) : f.get p = p.textOrEmpty f.number := by
  cases f <;> rfl

theorem set_eq (f : DelimitedField) (p : Packet capacity) (s : String) :
    f.set p s = p.edited (.setPieces f.number (f.trim s)) := by
  cases f <;> rfl

/-! ## Setting -/

variable {f : DelimitedField} {p q : Packet capacity} {s t : String} {texts : List String}

theorem written_eq (f : DelimitedField) (s : String) :
    f.number.written (.text (f.trim s)) = (f.pieces s).map textBytes := by
  simp [OptionNumber.written, f.delimited, pieces, segmentsOf, Function.comp_def]

theorem carries_iff : f.number.Carries (.text (f.trim s)) ↔
    ∀ piece ∈ f.pieces s, piece.utf8ByteSize ≤ maxTextLength := by
  constructor
  · intro carries piece member
    rw [← textBytes_length, ← f.maxLength]
    apply carries.short
    rw [written_eq]
    exact List.mem_map_of_mem member
  · intro short
    refine ⟨f.known, f.visible, f.format.symm, ?_, ?_⟩
    · intro value member
      rw [written_eq] at member
      obtain ⟨piece, listed, rfl⟩ := List.mem_map.mp member
      rw [textBytes_length, f.maxLength]
      exact short piece listed
    · intro _ _ undelimited
      rw [f.delimited] at undelimited
      cases undelimited

theorem replaced_nil (f : DelimitedField) (p : Packet capacity) :
    f.replaced p [] = without f.number p.options := by
  simp [replaced, insertAfter, occurrences]

/-- Setting stores the pieces, and fails exactly if one is too long or they have no room. -/
theorem set_iff (h : p.Canonical) : f.set p s = .ok q ↔
    ((∀ piece ∈ f.pieces s, piece.utf8ByteSize ≤ maxTextLength) ∧
      (encodeOptions 0 (f.replaced p (f.pieces s))).length + p.payload.length ≤ capacity) ∧
    q = p.withOptions (f.replaced p (f.pieces s)) := by
  have start := h.payloadStart_eq
  rw [set_eq, Packet.setPieces_eq]
  split
  · next empty =>
    have none : f.pieces s = [] := by
      rw [String.isEmpty_iff] at empty
      rw [pieces, empty]
      rfl
    have room := (h.removeOption (h.removeOption_eq f.known f.visible)).room
    rw [Packet.withOptions_region, Packet.withOptions_payload] at room
    rw [h.removeOption_eq f.known f.visible, none, replaced_nil]
    simp [room, eq_comm]
  · rw [h.setOption_iff, carries_iff, written_eq]
    unfold replaced
    constructor
    · rintro ⟨⟨short, room⟩, same⟩
      exact ⟨⟨short, by omega⟩, same⟩
    · rintro ⟨⟨short, room⟩, same⟩
      exact ⟨⟨short, by omega⟩, same⟩

theorem set_canonical (h : p.Canonical) (done : f.set p s = .ok q) : q.Canonical := by
  rw [set_eq] at done
  exact h.setPieces done

theorem segments_of_set (h : p.Canonical) (done : f.set p s = .ok q) :
    q.segments f.number = (f.pieces s).map textBytes := by
  rw [set_eq] at done
  rw [h.setPieces_segments f.visible f.delimited done, pathPieces_eq, pieces]

/-! ## Reading -/

theorem get_of_segments (h : p.Canonical) (stored : p.segments f.number = texts.map textBytes) :
    f.get p = if (f.join texts).utf8ByteSize ≤ textBuffer then .ok (f.join texts)
      else .error .noRoom := by
  rw [get_eq, h.textOrEmpty_texts f.known f.visible f.format stored, separator]
  rfl

theorem texts_of_get (h : p.Canonical) (read : f.get p = .ok t) :
    ∃ texts : List String, p.segments f.number = texts.map textBytes ∧ t = f.join texts := by
  rw [get_eq] at read
  obtain ⟨texts, stored⟩ := h.texts_of_textOrEmpty f.known f.visible f.format read
  refine ⟨texts, stored, ?_⟩
  rw [← get_eq, get_of_segments h stored] at read
  split at read
  · exact (Except.ok.inj read).symm
  · cases read

/-! ## Setting what was read -/

theorem pieces_of_path (path : f.isPath = true) (t : String) :
    f.pieces t = (segmentsOf f.delimiter t.toList).map String.ofList := by
  cases f with
  | uriQuery => cases path
  | uriPath | locationPath =>
    simp only [pieces, trim, delimiter, trimSlashes, dropLeading, String.toList_ofList]
    rw [segmentsOf_dropWhile]

theorem pieces_clean {piece : String} (member : piece ∈ f.pieces s) :
    piece.toList ≠ [] ∧ f.delimiter ∉ piece.toList := by
  obtain ⟨segment, listed, rfl⟩ := List.mem_map.mp member
  rw [String.toList_ofList]
  exact segmentsOf_clean f.delimiter _ segment listed

theorem pieces_join (path : f.isPath = true)
    (clean : Clean f.delimiter (texts.map String.toList)) : f.pieces (f.join texts) = texts := by
  rw [pieces_of_path path, join, String.toList_intercalate, String.toList_singleton,
    segmentsOf_intercalate clean, List.map_map]
  simp

theorem replaced_self (h : p.Canonical) (stored : p.segments f.number = texts.map textBytes) :
    f.replaced p texts = p.options := by
  have own : optionsAt f.number p.options = occurrences f.number (texts.map textBytes) := by
    rw [← stored, h.segments_eq f.visible, occurrences, List.map_map]
    refine (List.map_id' _).symm.trans (List.map_congr_left fun o member => ?_)
    have same : o.number = f.number := by simpa [optionsAt] using (List.mem_filter.mp member).2
    rw [← same]
    rfl
  have same : ∀ o ∈ occurrences f.number (texts.map textBytes), o.number = f.number :=
    fun o member => (mem_occurrences member).1
  have sorted := (h.lawful.without f.number).sorted
  refine eq_of_optionsAt (sorted_insertAfter sorted same) h.lawful.sorted fun m => ?_
  rw [replaced, optionsAt_insertAfter sorted same]
  by_cases here : m = f.number
  · have none : optionsAt m (without f.number p.options) = [] :=
      optionsAt_none fun o member => by simpa [without, here] using (List.mem_filter.mp member).2
    rw [none, List.nil_append, here, optionsAt_self same, own]
  · have none : optionsAt m (occurrences f.number (texts.map textBytes)) = [] :=
      optionsAt_none fun o member => by rw [same o member]; exact Ne.symm here
    have kept : optionsAt m (without f.number p.options) = optionsAt m p.options := by
      rw [optionsAt, without, List.filter_filter]
      apply List.filter_congr
      intro o _
      by_cases at_m : o.number = m
      · simp [at_m, here]
      · simp [at_m]
    rw [none, List.append_nil, kept]

/-- A path is set to what was read of it without any change exactly if no delimiter stands inside
a segment. -/
theorem set_joined_iff (h : p.Canonical) (path : f.isPath = true)
    (stored : p.segments f.number = texts.map textBytes) :
    f.set p (f.join texts) = .ok p ↔ ∀ text ∈ texts, f.delimiter ∉ text.toList := by
  constructor
  · intro done text member
    have same := stored.symm.trans (segments_of_set h done)
    rw [List.map_inj_right fun _ _ => textBytes_injective] at same
    exact (pieces_clean (same ▸ member)).2
  · intro free
    have lawful : ∀ text ∈ texts, (VisibleOption.mk f.number (textBytes text)).Lawful := by
      intro text member
      have listed : textBytes text ∈ (optionsAt f.number p.options).map (·.value) := by
        rw [← h.segments_eq f.visible, stored]
        exact List.mem_map_of_mem member
      obtain ⟨o, here, value⟩ := List.mem_map.mp listed
      obtain ⟨present, number⟩ := List.mem_filter.mp here
      have found := h.lawful.lawful o present
      rw [beq_iff_eq] at number
      rwa [← number, ← value]
    have clean : Clean f.delimiter (texts.map String.toList) := by
      intro segment member
      obtain ⟨text, listed, rfl⟩ := List.mem_map.mp member
      refine ⟨fun empty => (lawful text listed).written f.format ?_, free text listed⟩
      rw [textBytes_eq_nil]
      exact String.toList_eq_nil_iff.mp empty
    rw [set_iff h, pieces_join path clean, replaced_self h stored]
    refine ⟨⟨fun text member => ?_, ?_⟩, h.withOptions_self.symm⟩
    · rw [← textBytes_length, ← f.maxLength]
      exact (lawful text member).fits
    · rw [← h.region]
      exact h.room

/-- Setting a path or a query succeeds exactly if no piece is too long and the arena has room for
all of them, stores them in order, and is read back joined as far as the buffer goes. A path that
was set is set to what it reads as without any change; one that came in a datagram is, unless a
slash stands inside a segment. In a packet no larger than the buffer nothing is too long to be
read. -/
theorem delimited_text (capacity : Nat) (edits : List PacketEdit) (f : DelimitedField)
    (s : String) :
    let p := Packet.reach capacity edits
    ((∃ q, f.set p s = .ok q) ↔ (∀ piece ∈ f.pieces s, piece.utf8ByteSize ≤ 270) ∧
        (encodeOptions 0 (f.replaced p (f.pieces s))).length + p.payload.length ≤ capacity) ∧
      (∀ q, f.set p s = .ok q → q.segments f.number = (f.pieces s).map textBytes ∧
        f.get q = (if (f.join (f.pieces s)).utf8ByteSize ≤ 128 then .ok (f.join (f.pieces s))
          else .error .noRoom) ∧
        (f.isPath = true → ∀ t, f.get q = .ok t → f.set q t = .ok q)) ∧
      (f.isPath = true → ∀ t, f.get p = .ok t → ∃ texts : List String,
        p.segments f.number = texts.map textBytes ∧
          (f.set p t = .ok p ↔ ∀ text ∈ texts, f.delimiter ∉ text.toList)) ∧
      (capacity ≤ 128 → f.get p ≠ .error .noRoom ∧ p.uriHost ≠ .error .noRoom) := by
  intro p
  have h : p.Canonical := Packet.reach_canonical capacity edits
  refine ⟨?_, fun q done => ?_, fun path t read => ?_, fun small => ⟨?_, ?_⟩⟩
  · constructor
    · rintro ⟨q, done⟩
      exact ((set_iff h).mp done).1
    · intro allowed
      exact ⟨_, (set_iff h).mpr ⟨allowed, rfl⟩⟩
  · have h' := set_canonical h done
    have stored := segments_of_set h done
    refine ⟨stored, get_of_segments h' stored, fun path t read => ?_⟩
    rw [get_of_segments h' stored] at read
    split at read
    · rw [← Except.ok.inj read, set_joined_iff h' path stored]
      exact fun piece member => (pieces_clean member).2
    · cases read
  · obtain ⟨texts, stored, rfl⟩ := texts_of_get h read
    exact ⟨texts, stored, set_joined_iff h path stored⟩
  · rw [get_eq]
    exact h.textOrEmpty_room small f.visible
  · have room := h.readText_room (n := .uriHost) small (by decide)
    unfold Packet.uriHost
    split <;> simp_all

/-- Superfluous slashes are gone when the path is read, and setting it to what was read changes
nothing. -/
theorem delimited_text_tidied :
    let p := Packet.reach 64 [.addOption .ifNoneMatch .empty]
    ∃ q, uriPath.set p "//a//b/" = .ok q ∧ q.segments .uriPath = [[0x61], [0x62]] ∧
      uriPath.get q = .ok "a/b" ∧ uriPath.set q "a/b" = .ok q ∧ uriPath.get p ≠ .error .noRoom := by
  intro p
  obtain ⟨succeeds, whole, -, room⟩ :=
    delimited_text 64 [.addOption .ifNoneMatch .empty] uriPath "//a//b/"
  have pieces : uriPath.pieces "//a//b/" = ["a", "b"] := by decide +kernel
  obtain ⟨q, done⟩ := succeeds.mpr (by rw [pieces]; decide +kernel)
  obtain ⟨stored, read, again⟩ := whole q done
  have joined : uriPath.get q = .ok "a/b" := by
    rw [read, pieces]
    decide +kernel
  rw [pieces] at stored
  exact ⟨q, done, stored, joined, again rfl _ joined, (room (by decide)).1⟩

/-- A datagram may bring a path of one segment with a slash in it. It reads like two segments,
and becomes two when it is set to what was read. -/
theorem slash_in_segment_splits :
    let p := Packet.reach 128 [.read [0x41, 1, 0, 1, 0x93, 0x61, 0x2F, 0x62]]
    p.uriPath.toOption = some "a/b" ∧ p.segments .uriPath = [[0x61, 0x2F, 0x62]] ∧
      (p.edited (.setUriPath "a/b")).toOption.map (fun q => (q.segments .uriPath, q.agrees p)) =
        some ([[0x61], [0x62]], false) := by
  decide +kernel

end DelimitedField
end CoapNode
