import CoapNode.Proofs.Packet.Texts
/-! Options set by name. A call that succeeds is read back by the accessor of the same name. It
stores one value, or none where leaving the option out says the same, and touches nothing but
its own option. -/
namespace CoapNode

/-! ## Values -/

/-- A content format and the one read back may have different names; their number is the same. -/
theorem ContentFormat.number_ofNumber (n : UInt16) : (ContentFormat.ofNumber n).number = n := by
  unfold ofNumber
  repeat' split
  all_goals simp_all [number]

theorem minimalBytes_head (w : UInt32) : (minimalBytes w).head? ≠ some 0 := by
  intro zero
  have first := List.head?_dropWhile_not (fun b : UInt8 => b == 0) (wordBytes w)
  rw [show (wordBytes w).dropWhile (fun b => b == 0) = minimalBytes w from rfl, zero] at first
  cases first

theorem minimalBytes_length (w : UInt32) :
    (minimalBytes w).length = (Nat.digits 256 w.toNat).length := by
  rw [minimalBytes_eq, List.length_map, List.length_reverse]

theorem OptionNumber.usable_of_uint {n : OptionNumber} (format : n.format = .uint) :
    n.known = true ∧ isFencepost n = false := by
  by_cases small : n ≤ largestOption
  · have table : ∀ m ≤ largestOption, OptionNumber.format m = .uint → isFencepost m = false := by
      decide
    exact ⟨by simp [known, small, format], table n small format⟩
  · have outside : optionTable[n]? = none := by
      rw [List.getElem?_eq_none_iff]
      exact Nat.lt_of_not_le small
    rw [OptionNumber.format, traits, outside] at format
    cases format

/-! ## Edits of one option -/

namespace Packet

variable {capacity : Nat} {p q : Packet capacity} {n : OptionNumber} {v : OptionValue}

/-- The packet is another one but for an option, of which it has these values. -/
structure Leaves (p q : Packet capacity) (n : OptionNumber) (values : List (List UInt8)) :
    Prop where
  canonical : q.Canonical
  segments : q.segments n = values
  others : ∀ m, m ≠ n → isFencepost m = false → q.segments m = p.segments m
  rest : p.SharesRest q

theorem Canonical.leaves_of_content (h : p.Canonical) (h' : q.Canonical) (rest : p.SharesRest q)
    (visible : isFencepost n = false) (differs : p.DiffersAt q n) {values : List (List UInt8)}
    (whole : (optionsAt n q.options).map (·.value) = values) : p.Leaves q n values where
  canonical := h'
  segments := by rw [h'.segments_eq visible, whole]
  others := fun m other shown => by
    rw [h'.segments_eq shown, h.segments_eq shown, differs.others m other]
  rest := rest

theorem values_occurrences (n : OptionNumber) (pieces : List (List UInt8)) :
    (occurrences n pieces).map (·.value) = pieces := by
  simp [occurrences, Function.comp_def]

theorem Canonical.removeOption_leaves (h : p.Canonical) (removed : p.removeOption n = .ok q) :
    p.Leaves q n [] := by
  obtain ⟨known, visible⟩ := removeOption_usable removed
  obtain ⟨differs, none⟩ := h.removeOption_content removed
  have rest : p.SharesRest q := by
    rw [h.removeOption_eq known visible] at removed
    cases removed
    exact ⟨rfl, rfl, rfl, rfl, rfl, rfl⟩
  exact h.leaves_of_content (h.removeOption removed) rest visible differs (by rw [none]; rfl)

theorem Canonical.setOption_leaves (h : p.Canonical) (done : p.setOption n v = .ok q) :
    p.Leaves q n (n.written v) := by
  obtain ⟨pieces, split, differs, whole⟩ := h.setOption_content done
  obtain ⟨rfl, -⟩ := OptionNumber.pieces_iff.mp split
  obtain ⟨⟨carries, -⟩, same⟩ := h.setOption_iff.mp done
  have rest : p.SharesRest q := by
    rw [same]
    exact ⟨rfl, rfl, rfl, rfl, rfl, rfl⟩
  exact h.leaves_of_content (h.setOption done) rest carries.visible differs
    (by rw [whole, values_occurrences])

theorem Canonical.addOption_leaves (h : p.Canonical) (added : p.addOption n v = .ok q) :
    p.Leaves q n (p.segments n ++ n.written v) := by
  obtain ⟨pieces, split, differs, whole⟩ := h.addOption_content added
  obtain ⟨rfl, -⟩ := OptionNumber.pieces_iff.mp split
  obtain ⟨⟨carries, -, -⟩, same⟩ := h.addOption_iff.mp added
  have rest : p.SharesRest q := by
    rw [same]
    exact ⟨rfl, rfl, rfl, rfl, rfl, rfl⟩
  refine h.leaves_of_content (h.addOption added) rest carries.visible differs ?_
  rw [whole, List.map_append, values_occurrences, h.segments_eq carries.visible]

theorem Canonical.addOption_tooLong_iff (h : p.Canonical) (format : n.format = .uint)
    (free : n.repeatable = true ∨ p.isSet n = false) (w : UInt32) :
    p.addOption n (.uint w) = .error .valueTooLong ↔
      n.maxLength < (Nat.digits 256 w.toNat).length := by
  obtain ⟨known, visible⟩ := OptionNumber.usable_of_uint format
  have accepted : n.accepts (.uint w) = .ok () :=
    OptionNumber.accepts_iff.mpr ⟨known, visible, format.symm⟩
  have single : (!n.repeatable && p.isSet n) = false := by
    rcases free with repeats | unset
    · simp [repeats]
    · simp [unset]
  rw [← minimalBytes_length]
  simp only [Packet.addOption_eq, accepted, single, OptionNumber.pieces, bind, Except.bind,
    Bool.false_eq_true, if_false]
  by_cases long : n.maxLength < (minimalBytes w).length
  · simp [long]
  · -- what is left is a splice, which fails for want of room only
    simp only [long, if_false, iff_false]
    rw [h.splice_eq]
    split <;> simp

/-! ## Reading back -/

theorem Canonical.isSet_segments (h : p.Canonical) (known : n.known = true)
    (visible : isFencepost n = false) : p.isSet n = !(p.segments n).isEmpty := by
  rw [h.isSet_eq known visible, h.segments_eq visible]
  simp

theorem Canonical.readUInt_of_segments (h : p.Canonical) (format : n.format = .uint)
    {values : List (List UInt8)} (stored : p.segments n = values) :
    p.readUInt n = values.head?.elim (.error .optionNotSet) fun b => .ok (bigEndian b) := by
  obtain ⟨known, visible⟩ := OptionNumber.usable_of_uint format
  have set := h.isSet_segments known visible
  rw [stored] at set
  simp only [readUInt, checkFormat, known, format, set, firstSegment, stored, bind, Except.bind]
  cases values <;> rfl

theorem Canonical.readUInt_minimal (h : p.Canonical) (format : n.format = .uint) {w : UInt32}
    (stored : p.segments n = [minimalBytes w]) : p.readUInt n = .ok w := by
  rw [h.readUInt_of_segments format stored]
  exact congrArg Except.ok (bigEndian_minimalBytes w)

theorem Canonical.uriHost_of_segments (h : p.Canonical) (small : capacity ≤ textBuffer)
    {host : String} (stored : p.segments .uriHost = [textBytes host]) : p.uriHost = .ok host := by
  have known : OptionNumber.uriHost.known = true := by decide
  have visible : isFencepost OptionNumber.uriHost = false := by decide
  have format : OptionNumber.uriHost.format = .text := by decide
  have texts : p.segments .uriHost = [host].map textBytes := stored
  have set : p.isSet .uriHost = true := by
    rw [h.isSet_segments known visible, stored]
    rfl
  have fits := Nat.le_trans (h.joined_le visible texts) small
  simp only [uriHost, readText, checkFormat, known, format, set, texts]
  rw [writeSegments_joined .uriHost fits]
  rfl

end Packet

/-! ## Calls by name -/

/-- A call that sets an option by name, or adds an occurrence of it. -/
inductive FieldCall where
  | uriPort (port : UInt16)
  | maxAge (seconds : UInt32)
  | observe (n : UInt32)
  | contentType (format : ContentFormat)
  | token (t : ShortBytes)
  | uriHost (host : String)
  | accept (format : ContentFormat)
  | condition (raw : List UInt8)

namespace FieldCall

variable {capacity : Nat}

def edit : FieldCall → Edit capacity
  | uriPort port => .setUriPort port
  | maxAge seconds => .setMaxAge seconds
  | observe n => .setObserve n
  | contentType format => .setContentType format
  | token t => .setToken t
  | uriHost host => .setUriHost host
  | accept format => .addAccept format
  | condition raw => .addCondition raw

def run (p : Packet capacity) (c : FieldCall) : Except CodecError (Packet capacity) :=
  p.edited c.edit

def number : FieldCall → OptionNumber
  | uriPort _ => .uriPort
  | maxAge _ => .maxAge
  | observe _ => .observe
  | contentType _ => .contentType
  | token _ => .token
  | uriHost _ => .uriHost
  | accept _ => .accept
  | condition _ => .condition

def value? : FieldCall → Option OptionValue
  | uriPort port => if port = standardPort then none else some (.uint port.toUInt32)
  | maxAge seconds => some (.uint seconds)
  | observe n => some (.uint n)
  | contentType format => some (.uint format.number.toUInt32)
  | token t => if t.isEmpty then none else some (.bytes t.bytes)
  | uriHost host => some (.text host)
  | accept format => some (.uint format.number.toUInt32)
  | condition raw => some (.bytes raw)

def adds : FieldCall → Bool
  | accept _ | condition _ => true
  | _ => false

def stored (c : FieldCall) : List (List UInt8) := c.value?.elim [] c.number.written

/-- The occurrences after the call. -/
def segments (p : Packet capacity) (c : FieldCall) : List (List UInt8) :=
  (if c.adds then p.segments c.number else []) ++ c.stored

/-- What the accessor of that name yields after the call. -/
def ReadsBack (p q : Packet capacity) : FieldCall → Prop
  | uriPort port => q.uriPort = port
  | maxAge seconds => q.maxAge = seconds
  | observe n => q.observe = .ok n
  | contentType format => ∃ read, q.contentType = some read ∧ read.number = format.number
  | token t => q.token = t
  | uriHost host => capacity ≤ textBuffer → q.uriHost = .ok host
  | accept format => ∃ read, q.accept = p.accept ++ [read] ∧ read.number = format.number
  | condition raw => q.conditions = p.conditions ++ [raw]

variable {p q : Packet capacity} {c : FieldCall}

theorem run_eq (p : Packet capacity) (c : FieldCall) :
    c.run p = match c.value? with
      | none => p.removeOption c.number
      | some v => if c.adds then p.addOption c.number v else p.setOption c.number v := by
  cases c with
  | uriPort port =>
    simp only [run, edit, Packet.setUriPort_eq, value?, number]
    split <;> rfl
  | token t =>
    simp only [run, edit, Edit.setToken, Packet.edited_ite, value?, number]
    split <;> rfl
  | _ => rfl

theorem edit_atomic (c : FieldCall) : (c.edit : Edit capacity).Atomic := by
  cases c with
  | uriPort port => exact Edit.setUriPort_atomic port
  | token t => exact Edit.setToken_atomic t
  | accept | condition => exact Edit.addOption_atomic ..
  | maxAge | observe | contentType | uriHost => exact Edit.setOption_atomic ..

theorem run_leaves (h : p.Canonical) (done : c.run p = .ok q) :
    p.Leaves q c.number (c.segments p) := by
  rw [run_eq] at done
  unfold segments stored
  cases value : c.value? with
  | none =>
    have sets : c.adds = false := by cases c <;> first | rfl | cases value
    rw [value] at done
    simpa [sets] using h.removeOption_leaves done
  | some v =>
    simp only [value] at done
    cases adds : c.adds with
    | true => exact h.addOption_leaves (by simpa [adds] using done)
    | false => exact h.setOption_leaves (by simpa [adds] using done)

theorem segments_of_uint (sets : c.adds = false) {w : UInt32}
    (value : c.value? = some (.uint w)) : c.segments p = [minimalBytes w] := by
  simp [segments, stored, sets, value, OptionNumber.written_uint]

theorem readsBack (h : p.Canonical) (done : c.run p = .ok q) : c.ReadsBack p q := by
  obtain ⟨kept, stored, -, -⟩ := run_leaves h done
  cases c with
  | uriPort port =>
    have format : OptionNumber.uriPort.format = .uint := by decide
    simp only [ReadsBack, Packet.uriPort]
    by_cases usual : port = standardPort
    · have nothing : segments p (uriPort port) = [] := by
        simp only [segments, FieldCall.stored, value?, if_pos usual]
        rfl
      rw [kept.readUInt_of_segments format (stored.trans nothing), usual]
      rfl
    · have read := kept.readUInt_minimal format
        (stored.trans (segments_of_uint rfl (if_neg usual)))
      simp [read, narrow?, port.toNat_lt]
  | maxAge seconds =>
    have read := kept.readUInt_minimal (n := .maxAge) (by decide)
      (stored.trans (segments_of_uint rfl rfl))
    simp only [ReadsBack, Packet.maxAge, read]
  | observe n => exact kept.readUInt_minimal (by decide) (stored.trans (segments_of_uint rfl rfl))
  | contentType format =>
    have read := kept.readUInt_minimal (n := .contentType) (by decide)
      (stored.trans (segments_of_uint rfl rfl))
    refine ⟨_, ?_, ContentFormat.number_ofNumber format.number⟩
    simp [Packet.contentType, read, narrow?, format.number.toNat_lt]
  | token t => exact (h.token_setToken done).1
  | uriHost host => exact fun small => kept.uriHost_of_segments small stored
  | accept format =>
    have whole : q.segments .accept =
        p.segments .accept ++ [minimalBytes format.number.toUInt32] := by
      rw [← OptionNumber.written_uint .accept]
      exact stored
    refine ⟨_, ?_, ContentFormat.number_ofNumber format.number⟩
    simp [Packet.accept, whole, bigEndian_minimalBytes]
  | condition raw => exact stored

theorem stored_minimal (numeric : c.number.format = .uint) : ∀ b ∈ c.stored, b.head? ≠ some 0 := by
  have single : ∀ (n : OptionNumber) (w : UInt32), ∀ b ∈ n.written (.uint w), b.head? ≠ some 0 := by
    intro n w b member
    rw [n.written_uint, List.mem_singleton] at member
    exact member ▸ minimalBytes_head w
  cases c with
  | uriPort port =>
    simp only [stored, value?]
    split
    · exact fun b member => nomatch member
    · exact single .uriPort port.toUInt32
  | maxAge seconds => exact single .maxAge seconds
  | observe n => exact single .observe n
  | contentType format => exact single .contentType format.number.toUInt32
  | accept format => exact single .accept format.number.toUInt32
  | token | uriHost | condition => exact absurd numeric (by simp only [number]; decide)

/-- What a call that succeeds leaves of a packet. -/
structure Outcome (c : FieldCall) (p q : Packet capacity) : Prop where
  readsBack : c.ReadsBack p q
  segments : q.segments c.number = c.segments p
  /-- The standard port and the empty token are expressed by leaving the option out. -/
  absent : c.value? = none → q.isSet c.number = false
  minimal : c.number.format = .uint → ∀ b ∈ c.stored, b.head? ≠ some 0
  others : ∀ m, m ≠ c.number → isFencepost m = false → q.segments m = p.segments m
  rest : p.SharesRest q

theorem run_outcome (h : p.Canonical) (done : c.run p = .ok q) : c.Outcome p q := by
  obtain ⟨kept, left, others, rest⟩ := run_leaves h done
  refine ⟨readsBack h done, left, fun absent => ?_, stored_minimal, others, rest⟩
  have sets : c.adds = false := by cases c <;> first | rfl | cases absent
  have usable : c.number.known = true ∧ isFencepost c.number = false := by
    cases c <;> (simp only [number]; decide)
  rw [kept.isSet_segments usable.1 usable.2, left, segments, stored, sets, absent]
  rfl

/-- Whatever a packet holds, calls by name that succeed are read back, store numbers without
leading zeros, and leave every other option and the rest of the packet as they are. A number is
refused as too long exactly if its digits are more than the option takes. -/
theorem calls_read_back (capacity : Nat) (edits : List PacketEdit) :
    let p := Packet.reach capacity edits
    (∀ c q, run p c = .ok q → c.Outcome p q) ∧
      ∀ (n : OptionNumber) (w : UInt32), n.format = .uint →
        (n.repeatable = true ∨ p.isSet n = false) →
        (p.addOption n (.uint w) = .error .valueTooLong ↔
          n.maxLength < (Nat.digits 256 w.toNat).length) := by
  intro p
  have h : p.Canonical := Packet.reach_canonical capacity edits
  exact ⟨fun c q done => run_outcome h done,
    fun n w format free => h.addOption_tooLong_iff format free w⟩

/-- Json is asked for after a format that was there, and no port has more than sixteen bits. -/
theorem calls_read_back_json :
    let p := Packet.reach 128 [.addOption .accept (.uint 0), .addOption .ifNoneMatch .empty]
    (∃ q, run p (.accept .json) = .ok q ∧ (accept .json).Outcome p q ∧
        q.accept = [.text, .json]) ∧
      OptionNumber.uriPort.format = .uint ∧ p.isSet .uriPort = false ∧
      p.addOption .uriPort (.uint 65536) = .error .valueTooLong := by
  intro p
  obtain ⟨outcome, tooLong⟩ := calls_read_back 128
    [.addOption .accept (.uint 0), .addOption .ifNoneMatch .empty]
  have read : (run p (.accept .json)).toOption.map (·.accept) = some [.text, .json] := by
    decide +kernel
  have format : OptionNumber.uriPort.format = .uint := by decide
  have unset : p.isSet .uriPort = false := by decide +kernel
  refine ⟨?_, format, unset, (tooLong .uriPort 65536 format (.inr unset)).mpr (by decide +kernel)⟩
  cases done : run p (.accept .json) with
  | error e => rw [done] at read; cases read
  | ok q =>
    rw [done] at read
    exact ⟨q, rfl, outcome _ q done, Option.some.inj read⟩

/-- Setting the number takes away the fencepost before If-None-Match, which a walk for
fenceposts shows. -/
theorem setObserve_moves_fencepost :
    let p := Packet.reach 128 [.addOption .ifNoneMatch .empty]
    OptionNumber.fencepost ≠ .observe ∧ p.segments .fencepost = [[]] ∧
      (p.setObserve 0).toOption.map (·.segments .fencepost) = some [] := by
  decide +kernel

end FieldCall
end CoapNode
