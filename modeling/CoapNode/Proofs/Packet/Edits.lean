import CoapNode.Packet.Datagram
import CoapNode.Packet.Fields
import CoapNode.Proofs.Packet.Canonical
/-! Every change a caller can make to a packet, and that all of them, failed ones included,
keep it canonical. A packet that a caller can hold is the result of such changes. -/
namespace CoapNode

theorem bind_eq_ok {ε α β : Type} {x : Except ε α} {f : α → Except ε β} {b : β} :
    (x >>= f) = .ok b ↔ ∃ a, x = .ok a ∧ f a = .ok b := by
  cases x <;> simp [bind, Except.bind]

namespace Packet

variable {capacity : Nat} {p q : Packet capacity}

theorem addOption_ok {n : OptionNumber} {v : OptionValue} (added : p.addOption n v = .ok q) :
    n.accepts v = .ok () ∧ (n.repeatable = true ∨ p.isSet n = false) ∧
      ∃ pieces, n.pieces v = .ok pieces ∧ p.splice n pieces false = .ok q := by
  rw [addOption_eq] at added
  obtain ⟨_, accepted, added⟩ := bind_eq_ok.mp added
  split at added
  · cases added
  · next free =>
    obtain ⟨pieces, split, spliced⟩ := bind_eq_ok.mp added
    refine ⟨accepted, ?_, pieces, split, spliced⟩
    simp only [Bool.and_eq_true, Bool.not_eq_true', not_and, Bool.not_eq_true] at free
    cases once : n.repeatable with
    | true => exact .inl rfl
    | false => exact .inr (free once)

theorem Canonical.addOption (h : p.Canonical) {n : OptionNumber} {v : OptionValue}
    (added : p.addOption n v = .ok q) : q.Canonical := by
  obtain ⟨accepted, free, pieces, split, spliced⟩ := addOption_ok added
  obtain ⟨known, visible, -⟩ := OptionNumber.accepts_ok accepted
  obtain ⟨lawful, single⟩ := OptionNumber.pieces_lawful accepted split
  refine h.splice_canonical (h.lawful.spliced n pieces false lawful fun once => ?_) spliced
  have unset : p.isSet n = false := free.resolve_left (by simp [once])
  rw [if_neg (by decide), h.optionsAt_of_not_isSet known visible unset]
  simpa [occurrences] using single once

theorem removeOption_ok {n : OptionNumber} (removed : p.removeOption n = .ok q) :
    (p.isSet n = false ∧ q = p) ∨ (p.isSet n = true ∧ p.splice n [] true = .ok q) := by
  rw [removeOption_eq] at removed
  split at removed
  · cases removed
  · split at removed
    · next unset =>
      cases removed
      exact .inl ⟨by simpa using unset, rfl⟩
    · next set => exact .inr ⟨by simpa using set, removed⟩

theorem Canonical.removeOption (h : p.Canonical) {n : OptionNumber}
    (removed : p.removeOption n = .ok q) : q.Canonical := by
  rcases removeOption_ok removed with ⟨-, rfl⟩ | ⟨-, spliced⟩
  · exact h
  · exact h.splice_canonical (h.lawful.spliced n [] true (by simp) fun _ => Nat.zero_le _) spliced

theorem setOption_ok {n : OptionNumber} {v : OptionValue} (done : p.setOption n v = .ok q) :
    ∃ between, p.removeOption n = .ok between ∧ between.addOption n v = .ok q :=
  bind_eq_ok.mp (setOption_eq p n v ▸ done)

theorem Canonical.setOption (h : p.Canonical) {n : OptionNumber} {v : OptionValue}
    (done : p.setOption n v = .ok q) : q.Canonical := by
  obtain ⟨between, removed, added⟩ := setOption_ok done
  exact (h.removeOption removed).addOption added

theorem Canonical.setPayload (h : p.Canonical) {bytes : List UInt8}
    (done : p.setPayload bytes = .ok q) : q.Canonical := by
  obtain ⟨fits, rfl⟩ := setPayload_ok done
  exact ⟨h.lawful, h.region, h.optionCount, h.index, fits⟩

/-! ## Reading datagrams -/

theorem Canonical.acceptOption (h : p.Canonical) {n : OptionNumber} {value : List UInt8}
    (accepted : p.acceptOption n value = .ok q) : q.Canonical := by
  unfold Packet.acceptOption at accepted
  split at accepted
  · cases accepted; exact h
  next visible =>
  split at accepted
  · split at accepted <;> cases accepted; exact h
  next known =>
  split at accepted
  · split at accepted <;> cases accepted; exact h
  next free =>
  split at accepted
  · split at accepted <;> cases accepted; exact h
  next written =>
  split at accepted
  · cases accepted
  next fits =>
  rw [store_splice] at accepted
  split at accepted
  · next spliced =>
    cases accepted
    simp only [Bool.not_eq_true, Bool.not_eq_false', Bool.and_eq_true, beq_iff_eq,
      List.isEmpty_iff, not_and] at visible known written
    have lawful : (VisibleOption.mk n value).Lawful :=
      ⟨known, visible, Nat.le_of_not_lt fits, written⟩
    refine h.splice_canonical (h.lawful.spliced n [value] false (by simpa using lawful)
      fun once => ?_) spliced
    have unset : p.isSet n = false := by simpa [once] using free
    rw [if_neg (by decide), h.optionsAt_of_not_isSet known visible unset]
    exact Nat.le_refl _
  · cases accepted

theorem refuse_canonical (p : Packet capacity) (cause : CodecError) (context : ErrorContext) :
    (p.refuse cause context).remains.Canonical :=
  p.clear_canonical.of_same_content rfl rfl rfl rfl

theorem acceptOption_error {n : OptionNumber} {value : List UInt8} {r : Refusal capacity}
    (refused : p.acceptOption n value = .error r) : r.remains.Canonical := by
  unfold Packet.acceptOption at refused
  simp only [store_splice] at refused
  repeat' split at refused
  all_goals cases refused
  all_goals exact refuse_canonical _ _ _

theorem acceptOptions_canonical (h : p.Canonical) (remaining : Option Nat) (number : Nat)
    (bytes : List UInt8) :
    (∀ q rest, p.acceptOptions remaining number bytes = .ok (q, rest) → q.Canonical) ∧
      ∀ r, p.acceptOptions remaining number bytes = .error r → r.remains.Canonical := by
  fun_induction Packet.acceptOptions p remaining number bytes with
  | case1 => exact ⟨by rintro q rest ⟨⟩; exact h, by rintro r ⟨⟩⟩
  | case2 => exact ⟨by rintro q rest ⟨⟩; exact h, by rintro r ⟨⟩⟩
  | case3 => exact ⟨by rintro q rest ⟨⟩, by rintro r ⟨⟩; exact refuse_canonical _ _ _⟩
  | case4 p remaining number bytes _ _ o read r refused =>
    exact ⟨by rintro q rest ⟨⟩, by rintro r ⟨⟩; exact acceptOption_error refused⟩
  | case5 p remaining number bytes _ _ o read q accepted ih => exact ih (h.acceptOption accepted)

theorem readContent_canonical (h : p.Canonical) (remaining : Option Nat) (body : List UInt8) :
    (∀ q, p.readContent remaining body = .ok q → q.Canonical) ∧
      ∀ r, p.readContent remaining body = .error r → r.remains.Canonical := by
  obtain ⟨good, bad⟩ := acceptOptions_canonical h remaining 0 body
  unfold readContent
  cases options : p.acceptOptions remaining 0 body with
  | error r => exact ⟨by rintro q ⟨⟩, by rintro r ⟨⟩; exact bad _ options⟩
  | ok result =>
    obtain ⟨q, rest⟩ := result
    have canonical := good q rest options
    simp only [store_setPayload]
    cases payload : q.setPayload rest with
    | ok whole =>
      simp only
      exact ⟨by rintro q ⟨⟩; exact canonical.setPayload payload, by rintro r ⟨⟩⟩
    | error e =>
      simp only
      exact ⟨by rintro q ⟨⟩, by rintro r ⟨⟩; exact refuse_canonical _ _ _⟩

/-- A packet read from a datagram is canonical, and so is what a refused one leaves. -/
theorem decode_canonical (capacity : Nat) (bytes : List UInt8) :
    (∀ q, decode capacity bytes = .ok q → q.Canonical) ∧
      ∀ r, decode capacity bytes = .error r → r.remains.Canonical := by
  unfold decode
  split
  · split
    · exact ⟨by rintro q ⟨⟩, by rintro r ⟨⟩; exact fresh_canonical capacity⟩
    · next kind _ =>
      simp only
      split
      · exact ⟨by rintro q ⟨⟩, by rintro r ⟨⟩; exact refuse_canonical _ _ _⟩
      · apply readContent_canonical
        exact (fresh_canonical capacity).of_same_content rfl rfl rfl rfl
  · exact ⟨by rintro q ⟨⟩, by rintro r ⟨⟩; exact refuse_canonical _ _ _⟩

end Packet

/-! ## Reachable packets -/

/-- A change that a caller can ask for. -/
inductive PacketEdit where
  | reset
  | setKind (kind : MessageKind)
  | setCode (code : Code)
  | setId (id : MessageId)
  | addOption (n : OptionNumber) (v : OptionValue)
  | setOption (n : OptionNumber) (v : OptionValue)
  | removeOption (n : OptionNumber)
  | setPayload (bytes : List UInt8)
  | setUriPath (path : String)
  | setUriQuery (query : String)
  | addUriQuery (query : String)
  | setLocationPath (path : String)
  | setUriHost (host : String)
  | setUriPort (port : UInt16)
  | setToken (token : ShortBytes)
  | setContentType (format : ContentFormat)
  | addAccept (format : ContentFormat)
  | setMaxAge (seconds : UInt32)
  | setObserve (n : UInt32)
  | addCondition (raw : List UInt8)
  /-- Reads a datagram into the packet, whatever the packet held before. -/
  | read (bytes : List UInt8)

namespace Packet

variable {capacity : Nat}

/-- What reading a datagram leaves, accepted or refused. -/
def readDatagram (capacity : Nat) (bytes : List UInt8) : Packet capacity :=
  match decode capacity bytes with
  | .ok q => q
  | .error r => r.remains

/-- The packet after a change, which may have failed. -/
def edit (p : Packet capacity) : PacketEdit → Packet capacity
  | .reset => fresh capacity
  | .setKind kind => { p with kind }
  | .setCode code => { p with code }
  | .setId id => { p with id }
  | .addOption n v => (p.attempt (.addOption n v)).1
  | .setOption n v => (p.attempt (.setOption n v)).1
  | .removeOption n => (p.attempt (.removeOption n)).1
  | .setPayload bytes => (p.attempt (.setPayload bytes)).1
  | .setUriPath path => (p.attempt (.setUriPath path)).1
  | .setUriQuery query => (p.attempt (.setUriQuery query)).1
  | .addUriQuery query => (p.attempt (.addUriQuery query)).1
  | .setLocationPath path => (p.attempt (.setLocationPath path)).1
  | .setUriHost host => (p.attempt (.setUriHost host)).1
  | .setUriPort port => (p.attempt (.setUriPort port)).1
  | .setToken token => (p.attempt (.setToken token)).1
  | .setContentType format => (p.attempt (.setContentType format)).1
  | .addAccept format => (p.attempt (.addAccept format)).1
  | .setMaxAge seconds => (p.attempt (.setMaxAge seconds)).1
  | .setObserve n => (p.attempt (.setObserve n)).1
  | .addCondition raw => (p.attempt (.addCondition raw)).1
  | .read bytes => readDatagram capacity bytes

def reach (capacity : Nat) (edits : List PacketEdit) : Packet capacity :=
  edits.foldl edit (fresh capacity)

theorem attempt_canonical {p : Packet capacity} (h : p.Canonical) {e : Edit capacity}
    (atomic : e.Atomic) (keeps : ∀ q, p.edited e = .ok q → q.Canonical) :
    (p.attempt e).1.Canonical := by
  rcases atomic.attempt_cases p with same | done
  · rw [same]
    exact h
  · exact keeps _ done

theorem Canonical.setPieces {p q : Packet capacity} (h : p.Canonical) {n : OptionNumber}
    {s : String} (done : p.edited (.setPieces n s) = .ok q) : q.Canonical := by
  rw [setPieces_eq] at done
  split at done
  · exact h.removeOption done
  · exact h.setOption done

theorem Canonical.edit {p : Packet capacity} (h : p.Canonical) (e : PacketEdit) :
    (p.edit e).Canonical := by
  cases e with
  | reset => exact fresh_canonical capacity
  | setKind kind => exact h.of_same_content rfl rfl rfl rfl
  | setCode code => exact h.of_same_content rfl rfl rfl rfl
  | setId id => exact h.of_same_content rfl rfl rfl rfl
  | addOption | addUriQuery | addAccept | addCondition =>
    exact attempt_canonical h (Edit.addOption_atomic ..) fun _ => h.addOption
  | setOption | setUriHost | setContentType | setMaxAge | setObserve =>
    exact attempt_canonical h (Edit.setOption_atomic ..) fun _ => h.setOption
  | removeOption =>
    exact attempt_canonical h (Edit.removeOption_atomic _) fun _ => h.removeOption
  | setPayload => exact attempt_canonical h (Edit.setPayload_atomic _) fun _ => h.setPayload
  | setUriPath | setUriQuery | setLocationPath =>
    exact attempt_canonical h (Edit.setPieces_atomic ..) fun _ => h.setPieces
  | setUriPort port =>
    refine attempt_canonical h (Edit.setUriPort_atomic port) fun q done => ?_
    rw [setUriPort_eq] at done
    split at done
    · exact h.removeOption done
    · exact h.setOption done
  | setToken token =>
    refine attempt_canonical h (Edit.setToken_atomic token) fun q done => ?_
    rw [show p.edited (.setToken token) = p.setToken token from rfl, setToken_eq] at done
    split at done
    · exact h.removeOption done
    · exact h.setOption done
  | read bytes =>
    obtain ⟨good, bad⟩ := decode_canonical capacity bytes
    simp only [Packet.edit, readDatagram]
    split
    · next q read => exact good q read
    · next r refused => exact bad r refused

theorem reach_canonical (capacity : Nat) (edits : List PacketEdit) :
    (reach capacity edits).Canonical := by
  have keeps : ∀ p : Packet capacity, p.Canonical → (edits.foldl Packet.edit p).Canonical := by
    induction edits with
    | nil => exact fun p h => h
    | cons e edits ih => exact fun p h => ih _ (h.edit e)
  exact keeps _ (fresh_canonical capacity)

end Packet
end CoapNode
