import CoapNode.Packet.Datagram
import CoapNode.Packet.Fields
/-! Edits write a packet in place, and those that fail leave the packet they were given: adding
and removing because they refuse before they write, replacing because it puts back its copy.
Of an edit that fails on the way in between, nothing is to be seen. -/
namespace CoapNode

variable {capacity : Nat}

namespace Packet

variable (p : Packet capacity)

/-! ## Running an edit -/

theorem attempt_get (f : Packet capacity → Edit capacity) :
    p.attempt (get >>= f) = p.attempt (f p) := rfl

theorem attempt_lift {α : Type} (x : Except CodecError α) (f : α → Edit capacity) :
    p.attempt (liftM x >>= f) = match x with
      | .ok a => p.attempt (f a)
      | .error cause => (p, .error cause) := by
  cases x <;> rfl

theorem attempt_bind (e f : Edit capacity) :
    p.attempt (e >>= fun _ => f) = match p.attempt e with
      | (q, .ok _) => q.attempt f
      | (q, .error cause) => (q, .error cause) := by
  unfold attempt
  simp only [ExceptT.run_bind, StateT.run_bind]
  generalize StateT.run (ExceptT.run e) p = ended
  obtain ⟨_ | _, q⟩ := ended <;> rfl

theorem attempt_tryCatch (e : Edit capacity) (rescue : CodecError → Edit capacity) :
    p.attempt (tryCatch e rescue) = match p.attempt e with
      | (q, .ok _) => (q, .ok ())
      | (q, .error cause) => q.attempt (rescue cause) := by
  unfold attempt
  simp only [tryCatch, tryCatchThe, MonadExceptOf.tryCatch, ExceptT.tryCatch, ExceptT.run,
    ExceptT.mk, StateT.run_bind]
  generalize StateT.run e p = ended
  obtain ⟨_ | _, q⟩ := ended <;> rfl

theorem attempt_ite (c : Prop) [Decidable c] (e f : Edit capacity) :
    p.attempt (if c then e else f) = if c then p.attempt e else p.attempt f :=
  apply_ite p.attempt c e f

/-- Replacing removes and adds, and goes back to its copy when either fails. -/
theorem attempt_setOption (n : OptionNumber) (v : OptionValue) :
    p.attempt (.setOption n v) =
      match p.attempt (do Edit.removeOption n; Edit.addOption n v) with
      | (q, .ok _) => (q, .ok ())
      | (_, .error cause) => (p, .error cause) := by
  rw [Edit.setOption, attempt_get, attempt_tryCatch]
  split <;> rfl

end Packet

/-! ## What a failed edit leaves -/

namespace Edit

/-- An edit that fails leaves the packet that it was given. -/
structure Atomic (e : Edit capacity) : Prop where
  unchanged : ∀ {p q : Packet capacity} {cause : CodecError},
    p.attempt e = (q, .error cause) → q = p

theorem setPayload_atomic (bytes : List UInt8) : (setPayload bytes : Edit capacity).Atomic := by
  refine ⟨fun {p q cause} failed => ?_⟩
  rw [setPayload, Packet.attempt_get, Packet.attempt_ite] at failed
  split at failed <;> cases failed
  rfl

theorem splice_atomic (n : OptionNumber) (pieces : List (List UInt8)) (replace : Bool) :
    (splice n pieces replace : Edit capacity).Atomic := by
  refine ⟨fun {p q cause} failed => ?_⟩
  rw [splice, Packet.attempt_get, Packet.attempt_ite] at failed
  split at failed <;> cases failed
  rfl

theorem addOption_atomic (n : OptionNumber) (v : OptionValue) :
    (addOption n v : Edit capacity).Atomic := by
  refine ⟨fun {p q cause} failed => ?_⟩
  rw [addOption, Packet.attempt_lift] at failed
  split at failed
  · rw [Packet.attempt_get, Packet.attempt_ite] at failed
    split at failed
    · cases failed
      rfl
    · rw [Packet.attempt_lift] at failed
      split at failed
      · exact (splice_atomic _ _ _).unchanged failed
      · cases failed
        rfl
  · cases failed
    rfl

theorem removeOption_atomic (n : OptionNumber) : (removeOption n : Edit capacity).Atomic := by
  refine ⟨fun {p q cause} failed => ?_⟩
  rw [removeOption, Packet.attempt_ite] at failed
  split at failed
  · cases failed
    rfl
  · rw [Packet.attempt_get, Packet.attempt_ite] at failed
    split at failed
    · cases failed
    · exact (splice_atomic _ _ _).unchanged failed

/-- By the copy alone: what was removed when the addition failed is back. -/
theorem setOption_atomic (n : OptionNumber) (v : OptionValue) :
    (setOption n v : Edit capacity).Atomic := by
  refine ⟨fun {p q cause} failed => ?_⟩
  rw [Packet.attempt_setOption] at failed
  split at failed <;> cases failed
  rfl

theorem ite_atomic {c : Prop} [Decidable c] {e f : Edit capacity} (he : e.Atomic)
    (hf : f.Atomic) : (if c then e else f).Atomic := by
  split
  · exact he
  · exact hf

theorem setPieces_atomic (n : OptionNumber) (s : String) :
    (setPieces n s : Edit capacity).Atomic :=
  ite_atomic (removeOption_atomic n) (setOption_atomic n _)

theorem setUriPort_atomic (port : UInt16) : (setUriPort port : Edit capacity).Atomic :=
  ite_atomic (removeOption_atomic _) (setOption_atomic _ _)

theorem setToken_atomic (token : ShortBytes) : (setToken token : Edit capacity).Atomic :=
  ite_atomic (removeOption_atomic _) (setOption_atomic _ _)

end Edit

/-! ## What edits yield -/

namespace Packet

variable {p q : Packet capacity}

theorem edited_eq_ok {e : Edit capacity} : p.edited e = .ok q ↔ p.attempt e = (q, .ok ()) := by
  unfold edited
  split
  · next r _ ended => simp [ended]
  · next ended => simp [ended]

theorem attempt_of_edited_error {e : Edit capacity} (atomic : e.Atomic) {cause : CodecError}
    (failed : p.edited e = .error cause) : p.attempt e = (p, .error cause) := by
  unfold edited at failed
  split at failed
  · cases failed
  · next ended =>
    cases failed
    rw [ended, atomic.unchanged ended]

theorem store_eq {e : Edit capacity} (atomic : e.Atomic) :
    p.store e = match p.edited e with
      | .ok q => .ok q
      | .error cause => .error (p.tooLarge cause) := by
  unfold store edited
  cases ended : p.attempt e with
  | mk q outcome =>
    cases outcome with
    | ok => rfl
    | error cause => rw [atomic.unchanged ended]

theorem edited_get (p : Packet capacity) (f : Packet capacity → Edit capacity) :
    p.edited (get >>= f) = p.edited (f p) := rfl

theorem edited_lift {α : Type} (p : Packet capacity) (x : Except CodecError α)
    (f : α → Edit capacity) : p.edited (liftM x >>= f) = x >>= fun a => p.edited (f a) := by
  cases x <;> rfl

theorem edited_bind (p : Packet capacity) (e f : Edit capacity) :
    p.edited (do e; f) = (do (← p.edited e).edited f) := by
  unfold edited
  rw [attempt_bind]
  cases p.attempt e with
  | mk q ended => cases ended <;> rfl

theorem edited_ite (p : Packet capacity) (c : Prop) [Decidable c] (e f : Edit capacity) :
    p.edited (if c then e else f) = if c then p.edited e else p.edited f :=
  apply_ite p.edited c e f

variable (p) (n : OptionNumber) (v : OptionValue)

theorem store_splice (pieces : List (List UInt8)) (replace : Bool) :
    p.store (.splice n pieces replace) = match p.splice n pieces replace with
      | .ok q => .ok q
      | .error cause => .error (p.tooLarge cause) :=
  store_eq (Edit.splice_atomic n pieces replace)

theorem store_setPayload (bytes : List UInt8) :
    p.store (.setPayload bytes) = match p.setPayload bytes with
      | .ok q => .ok q
      | .error cause => .error (p.tooLarge cause) := store_eq (Edit.setPayload_atomic bytes)

theorem setPayload_eq (bytes : List UInt8) : p.setPayload bytes =
    if capacity < p.region.length + bytes.length then .error .noRoom
    else .ok { p with payload := bytes } := by
  rw [setPayload, Edit.setPayload, edited_get, edited_ite]
  rfl

variable {p} in
theorem setPayload_ok {bytes : List UInt8} (done : p.setPayload bytes = .ok q) :
    p.region.length + bytes.length ≤ capacity ∧ q = { p with payload := bytes } := by
  rw [setPayload_eq] at done
  split at done
  · cases done
  · next fits =>
    cases done
    exact ⟨Nat.le_of_not_lt fits, rfl⟩

theorem addOption_eq : p.addOption n v = (do
    n.accepts v
    if !n.repeatable && p.isSet n then .error .optionAlreadySet
    else
      let pieces ← n.pieces v
      p.splice n pieces false) := by
  simp only [addOption, Edit.addOption, edited_lift, edited_get, edited_ite]
  rfl

theorem removeOption_eq : p.removeOption n =
    if !n.known || isFencepost n then .error .unknownOption
    else if !p.isSet n then .ok p
    else p.splice n [] true := by
  simp only [removeOption, Edit.removeOption, edited_get, edited_ite]
  rfl

theorem setOption_eq : p.setOption n v = (do (← p.removeOption n).addOption n v) := by
  refine Eq.trans ?_ (edited_bind p (.removeOption n) (.addOption n v))
  unfold setOption edited
  rw [attempt_setOption]
  cases p.attempt (do Edit.removeOption n; Edit.addOption n v) with
  | mk q ended => cases ended <;> rfl

theorem setPieces_eq (s : String) : p.edited (.setPieces n s) =
    if s.isEmpty then p.removeOption n else p.setOption n (.text s) := edited_ite ..

theorem setUriPort_eq (port : UInt16) : p.edited (.setUriPort port) =
    if port = standardPort then p.removeOption .uriPort
    else p.setOption .uriPort (.uint port.toUInt32) := edited_ite ..

theorem setToken_eq (token : ShortBytes) : p.setToken token =
    if token.isEmpty then p.removeOption .token else p.setOption .token (.bytes token.bytes) :=
  edited_ite ..

end Packet

theorem Edit.Atomic.attempt_cases {e : Edit capacity} (atomic : e.Atomic)
    (p : Packet capacity) : (p.attempt e).1 = p ∨ p.edited e = .ok (p.attempt e).1 := by
  cases done : p.edited e with
  | ok q => exact .inr (by rw [Packet.edited_eq_ok.mp done])
  | error cause => exact .inl (by rw [Packet.attempt_of_edited_error atomic done])

end CoapNode
