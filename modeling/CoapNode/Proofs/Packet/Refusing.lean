import CoapNode.Proofs.Packet.Grammar
/-! What is known of a datagram whether or not it can be read. A header of four bytes tells what
kind of message it opens; when the rest is refused the header stays, and beside it the code that
an error response should have. -/
namespace CoapNode

/-- What the header of a datagram says, whatever follows it. -/
structure Heading where
  kind : MessageKind
  code : Code
  id : MessageId

inductive Opens : List UInt8 → Heading → Prop
  | header {first code high low : UInt8} {body : List UInt8} {h : Heading}
      (kind : h.kind.number.toNat = first.toNat / 16 % 4)
      (category : h.code.category.toNat = code.toNat / 32)
      (detail : h.code.detail.toNat = code.toNat % 32)
      (id : h.id.val.toNat = high.toNat * 256 + low.toNat) :
      Opens (first :: code :: high :: low :: body) h

/-- A message that a sender waits for an answer to: it asks something, and is no reply itself. -/
def Heading.Asks (h : Heading) : Prop :=
  (h.kind = .confirmable ∨ h.kind = .nonConfirmable) ∧ h.code.isRequest = true

def faultCodes : List Code :=
  [Code.badRequest, Code.badOption, Code.requestEntityTooLarge, Code.notImplemented]

theorem ofByte_toByte_of_mem_faultCodes {code : Code} (fault : code ∈ faultCodes) :
    Code.ofByte code.toByte = code := by
  have table : ∀ code ∈ faultCodes, Code.ofByte code.toByte = code := by decide
  exact table code fault

theorem ofNumber?_masked (first : UInt8) :
    ∃ kind, MessageKind.ofNumber? ((first >>> 4) &&& 3) = .ok kind := by
  have table : ∀ n : Fin 256,
      (MessageKind.ofNumber? ((UInt8.ofNat n.val >>> 4) &&& 3)).toBool = true := by decide +kernel
  have some := table ⟨first.toNat, first.toNat_lt⟩
  simp only [UInt8.ofNat_toNat] at some
  cases outcome : MessageKind.ofNumber? ((first >>> 4) &&& 3) with
  | ok kind => exact ⟨kind, rfl⟩
  | error e => rw [outcome] at some; cases some

theorem opens_iff {bytes : List UInt8} {h : Heading} : Opens bytes h ↔
    ∃ first code high low body, bytes = first :: code :: high :: low :: body ∧
      MessageKind.ofNumber? ((first >>> 4) &&& 3) = .ok h.kind ∧ Code.ofByte code = h.code ∧
      MessageId.ofBytes high low = h.id := by
  constructor
  · intro opens
    cases opens with
    | header kind category detail id =>
      exact ⟨_, _, _, _, _, rfl, (firstByte_fields _ _).2.mpr kind,
        (code_fields _ _).mpr ⟨category, detail⟩, (id_fields _ _ _).mpr id⟩
  · rintro ⟨first, code, high, low, body, rfl, kind, sort, id⟩
    obtain ⟨category, detail⟩ := (code_fields _ _).mp sort
    exact .header ((firstByte_fields _ _).2.mp kind) category detail ((id_fields _ _ _).mp id)

theorem Opens.unique {bytes : List UInt8} {h h' : Heading} (one : Opens bytes h)
    (other : Opens bytes h') : h = h' := by
  obtain ⟨_, _, _, _, _, rfl, kind, code, id⟩ := opens_iff.mp one
  obtain ⟨_, _, _, _, _, same, kind', code', id'⟩ := opens_iff.mp other
  cases same
  rw [kind, Except.ok.injEq] at kind'
  obtain ⟨_, _, _⟩ := h
  obtain ⟨_, _, _⟩ := h'
  simp_all

namespace Packet

variable {capacity : Nat} {p q : Packet capacity} {r : Refusal capacity}

def heading (p : Packet capacity) : Heading := ⟨p.kind, p.code, p.id⟩

/-- The refusal of a packet whose header was read. -/
structure Blames (p : Packet capacity) (r : Refusal capacity) : Prop where
  cause : r.cause ≠ .notCoap
  heading : r.remains.heading = p.heading
  code : r.remains.fault.code ∈ faultCodes

theorem overrun_blames (p : Packet capacity) : p.Blames p.overrun :=
  ⟨by simp [overrun, refuse], rfl, by simp [overrun, refuse, faultCodes]⟩

theorem tooLarge_blames (p : Packet capacity) : p.Blames (p.tooLarge .noRoom) :=
  ⟨by simp [tooLarge, refuse], rfl, by simp [tooLarge, refuse, faultCodes]⟩

theorem badOption_blames (p : Packet capacity) {cause : CodecError} (known : cause ≠ .notCoap)
    (n : OptionNumber) : p.Blames (p.badOption cause n) :=
  ⟨known, rfl, by simp [badOption, refuse, faultCodes]⟩

theorem Blames.of_heading (h : q.Blames r) (same : q.heading = p.heading) : p.Blames r :=
  ⟨h.cause, h.heading.trans same, h.code⟩

theorem splice_outcome (p : Packet capacity) (n : OptionNumber) (pieces : List (List UInt8))
    (replace : Bool) :
    (∃ q, p.splice n pieces replace = .ok q ∧ q.heading = p.heading) ∨
      p.splice n pieces replace = .error .noRoom := by
  rw [splice, Edit.splice, edited_get, edited_ite]
  split
  · exact .inr rfl
  · exact .inl ⟨_, rfl, rfl⟩

theorem acceptOption_outcome (p : Packet capacity) (n : OptionNumber) (value : List UInt8) :
    (∃ q, p.acceptOption n value = .ok q ∧ q.heading = p.heading) ∨
      ∃ r, p.acceptOption n value = .error r ∧ p.Blames r := by
  unfold acceptOption
  split
  · exact .inl ⟨p, rfl, rfl⟩
  split
  · split
    · exact .inr ⟨_, rfl, p.badOption_blames (by simp) _⟩
    · exact .inl ⟨p, rfl, rfl⟩
  split
  · split
    · exact .inr ⟨_, rfl, p.badOption_blames (by simp) _⟩
    · exact .inl ⟨p, rfl, rfl⟩
  split
  · split
    · exact .inr ⟨_, rfl, p.badOption_blames (by simp) _⟩
    · exact .inl ⟨p, rfl, rfl⟩
  split
  · exact .inr ⟨_, rfl, p.badOption_blames (by simp) _⟩
  · rw [store_splice]
    rcases p.splice_outcome n [value] false with ⟨q, stored, same⟩ | full
    · exact .inl ⟨q, by rw [stored], same⟩
    · exact .inr ⟨_, by rw [full], p.tooLarge_blames⟩

theorem acceptOptions_outcome (p : Packet capacity) (remaining : Option Nat) (number : Nat)
    (bytes : List UInt8) :
    (∃ q rest, p.acceptOptions remaining number bytes = .ok (q, rest) ∧ q.heading = p.heading) ∨
      ∃ r, p.acceptOptions remaining number bytes = .error r ∧ p.Blames r := by
  fun_induction Packet.acceptOptions p remaining number bytes with
  | case1 | case2 => exact .inl ⟨_, _, rfl, rfl⟩
  | case3 p => exact .inr ⟨_, rfl, p.overrun_blames⟩
  | case4 p remaining number bytes _ _ o read r refused =>
    rcases p.acceptOption_outcome (advanceNumber number o.delta) o.value with
      ⟨q, taken, -⟩ | ⟨r', refused', blames⟩
    · rw [refused] at taken; cases taken
    · rw [refused] at refused'; cases refused'
      exact .inr ⟨r, rfl, blames⟩
  | case5 p remaining number bytes _ _ o read q taken ih =>
    rcases p.acceptOption_outcome (advanceNumber number o.delta) o.value with
      ⟨q', taken', same⟩ | ⟨r, refused, -⟩
    · rw [taken] at taken'; cases taken'
      rcases ih with ⟨q', rest, read, heading⟩ | ⟨r, refused, blames⟩
      · exact .inl ⟨q', rest, read, heading.trans same⟩
      · exact .inr ⟨r, refused, blames.of_heading same⟩
    · rw [taken] at refused; cases refused

theorem readContent_outcome (p : Packet capacity) (remaining : Option Nat) (body : List UInt8) :
    (∃ q, p.readContent remaining body = .ok q ∧ q.heading = p.heading) ∨
      ∃ r, p.readContent remaining body = .error r ∧ p.Blames r := by
  unfold readContent
  rcases p.acceptOptions_outcome remaining 0 body with ⟨q, rest, read, same⟩ | ⟨r, failed, blames⟩
  · rw [read]
    simp only [store_setPayload, setPayload_eq]
    by_cases large : capacity < q.region.length + rest.length
    · rw [if_pos large]
      exact .inr ⟨_, rfl, q.tooLarge_blames.of_heading same⟩
    · rw [if_neg large]
      exact .inl ⟨_, rfl, same⟩
  · rw [failed]
    exact .inr ⟨r, rfl, blames⟩

theorem decode_other_version {first code high low : UInt8} {body : List UInt8}
    {kind : MessageKind} (version : first >>> 6 ≠ protocolVersion)
    (sort : MessageKind.ofNumber? ((first >>> 4) &&& 3) = .ok kind) :
    decode capacity (first :: code :: high :: low :: body) =
      .error (({ headerOnly capacity kind (Code.ofByte code) (MessageId.ofBytes high low) with
        version := first >>> 6 }).refuse .wrongVersion { code := Code.notImplemented }) := by
  simp only [decode, sort, ne_eq, version, not_false_eq_true, if_true]
  rfl

/-- What reading a datagram comes to, by its header. -/
inductive Decodes (capacity : Nat) (bytes : List UInt8) : Prop
  | short (few : bytes.length < headerLength) {r : Refusal capacity}
      (refused : decode capacity bytes = .error r) (cause : r.cause = .notCoap)
  | refused {r : Refusal capacity} (refused : decode capacity bytes = .error r)
      (cause : r.cause ≠ .notCoap) (opens : Opens bytes r.remains.heading)
      (code : r.remains.fault.code ∈ faultCodes)
  | read {p : Packet capacity} (read : decode capacity bytes = .ok p)
      (opens : Opens bytes p.heading)

theorem decode_outcome (capacity : Nat) (bytes : List UInt8) : Decodes capacity bytes := by
  match bytes with
  | [] | [_] | [_, _] | [_, _, _] => exact .short (by simp [headerLength]) rfl rfl
  | first :: code :: high :: low :: body =>
    obtain ⟨kind, sort⟩ := ofNumber?_masked first
    have opens : Opens (first :: code :: high :: low :: body)
        ⟨kind, Code.ofByte code, MessageId.ofBytes high low⟩ :=
      opens_iff.mpr ⟨_, _, _, _, _, rfl, sort, rfl, rfl⟩
    by_cases version : first >>> 6 = protocolVersion
    · rcases (headerOnly capacity kind (Code.ofByte code)
          (MessageId.ofBytes high low)).readContent_outcome (announcedOptions first) body with
        ⟨q, read, same⟩ | ⟨r, refused, blames⟩
      · exact .read ((decode_cons version sort).trans read) (same ▸ opens)
      · exact .refused ((decode_cons version sort).trans refused) blames.cause
          (blames.heading ▸ opens) blames.code
    · exact .refused (decode_other_version version sort) (by simp [refuse]) opens
        (by simp [refuse, faultCodes])

end Packet
end CoapNode
