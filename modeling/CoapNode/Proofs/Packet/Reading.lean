import CoapNode.Proofs.Packet.Arena
import CoapNode.Proofs.ShortBytes
/-! Reading an option gives the occurrences that the packet has of it, and an edit of one option
concerns neither the others nor the rest of the packet. -/
namespace CoapNode

theorem takeWhile_dropWhile_sorted {entries : List OptionEntry} (n : OptionNumber)
    (sorted : entries.Pairwise fun a b => a.number ≤ b.number) :
    (entries.dropWhile fun e => e.number < n).takeWhile (fun e => e.number == n) =
      entries.filter fun e => e.number == n := by
  induction entries with
  | nil => rfl
  | cons e rest ih =>
    obtain ⟨least, later⟩ := List.pairwise_cons.mp sorted
    rcases Nat.lt_trichotomy e.number n with less | same | more
    · rw [List.dropWhile_cons_of_pos (by simpa using less), ih later,
        List.filter_cons_of_neg (by simpa using Nat.ne_of_lt less)]
    · have start : rest.dropWhile (fun e => e.number < n) = rest := by
        cases rest with
        | nil => rfl
        | cons x xs =>
          have reached : n ≤ x.number := same ▸ least x (List.mem_cons_self ..)
          exact List.dropWhile_cons_of_neg (by simpa using reached)
      rw [List.dropWhile_cons_of_neg (by simpa using Nat.le_of_eq same.symm),
        List.takeWhile_cons_of_pos (by simpa using same),
        List.filter_cons_of_pos (by simpa using same), ← ih later, start]
    · have none : (e :: rest).filter (fun e => e.number == n) = [] := by
        rw [List.filter_eq_nil_iff]
        intro x member
        have beyond : n < x.number := by
          rcases List.mem_cons.mp member with rfl | member
          · exact more
          · exact Nat.lt_of_lt_of_le more (least x member)
        simpa using Nat.ne_of_gt beyond
      rw [none, List.dropWhile_cons_of_neg (by simpa using Nat.le_of_lt more),
        List.takeWhile_cons_of_neg (by simpa using Nat.ne_of_gt more)]

namespace Packet

variable {capacity : Nat} {p q : Packet capacity} {n : OptionNumber}

theorem Canonical.segments_eq (h : p.Canonical) (visible : isFencepost n = false) :
    p.segments n = (optionsAt n p.options).map (·.value) := by
  rw [segments, takeWhile_dropWhile_sorted n h.sorted, p.filter_entries_values visible]

theorem Canonical.isSet_eq (h : p.Canonical) (known : n.known = true)
    (visible : isFencepost n = false) : p.isSet n = !(optionsAt n p.options).isEmpty := by
  rw [Bool.eq_iff_iff, h.isSet_iff known visible]
  simp [optionsAt, List.filter_eq_nil_iff]

theorem Canonical.readUInt_toBool (h : p.Canonical) (known : n.known = true)
    (format : n.format = .uint) (visible : isFencepost n = false) :
    (p.readUInt n).toBool = p.isSet n := by
  have set := h.isSet_eq known visible
  simp only [readUInt, checkFormat, known, format, firstSegment, h.segments_eq visible, bind,
    Except.bind]
  cases found : optionsAt n p.options with
  | nil =>
    rw [found] at set
    simp [set, Except.toBool]
  | cons o rest =>
    rw [found] at set
    simp [set, Except.toBool, pure, Except.pure]

theorem Canonical.token_eq (h : p.Canonical) :
    p.token = ((optionsAt OptionNumber.token p.options).head?.bind fun o =>
      ShortBytes.ofList? o.value).getD .empty := by
  have visible : isFencepost OptionNumber.token = false := by decide
  have known : OptionNumber.token.known = true := by decide
  have format : OptionNumber.token.format = .bytes := by decide
  simp only [token, readBytes, checkFormat, known, format, h.isSet_eq known visible, firstSegment,
    h.segments_eq visible, bind, Except.bind]
  cases optionsAt OptionNumber.token p.options with
  | nil => rfl
  | cons o rest =>
    cases short : ShortBytes.ofList? o.value <;> simp [short]

/-! ## Edits -/

/-- The packets differ at most in the occurrences of one option. -/
structure DiffersAt (p q : Packet capacity) (n : OptionNumber) : Prop where
  kind : q.kind = p.kind
  code : q.code = p.code
  id : q.id = p.id
  payload : q.payload = p.payload
  others : ∀ m, m ≠ n → optionsAt m q.options = optionsAt m p.options

theorem DiffersAt.refl (p : Packet capacity) (n : OptionNumber) : p.DiffersAt p n :=
  ⟨rfl, rfl, rfl, rfl, fun _ _ => rfl⟩

theorem DiffersAt.trans {r : Packet capacity} (h : p.DiffersAt q n) (h' : q.DiffersAt r n) :
    p.DiffersAt r n where
  kind := h'.kind.trans h.kind
  code := h'.code.trans h.code
  id := h'.id.trans h.id
  payload := h'.payload.trans h.payload
  others := fun m other => (h'.others m other).trans (h.others m other)

theorem Canonical.splice_content (h : p.Canonical) {pieces : List (List UInt8)} {replace : Bool}
    (lawful : LawfulOptions (splicedOptions n pieces replace p.options))
    (spliced : p.splice n pieces replace = .ok q) :
    p.DiffersAt q n ∧ optionsAt n q.options =
      (if replace then [] else optionsAt n p.options) ++ occurrences n pieces := by
  rw [h.splice_eq] at spliced
  split at spliced
  · cases spliced
    have options := p.withOptions_options _ lawful
    refine ⟨⟨rfl, rfl, rfl, rfl, fun m other => ?_⟩, ?_⟩
    · rw [options, optionsAt_spliced_other other pieces replace h.lawful.ascending]
    · rw [options, optionsAt_spliced_same]
  · cases spliced

theorem Canonical.removeOption_content (h : p.Canonical)
    (removed : p.removeOption n = .ok q) : p.DiffersAt q n ∧ optionsAt n q.options = [] := by
  obtain ⟨known, visible⟩ : n.known = true ∧ isFencepost n = false := by
    rw [removeOption_eq] at removed
    split at removed
    · cases removed
    · next usable => simpa using usable
  rcases removeOption_ok removed with ⟨unset, rfl⟩ | ⟨-, spliced⟩
  · exact ⟨.refl q n, h.optionsAt_of_not_isSet known visible unset⟩
  · exact h.splice_content (h.lawful.spliced n [] true (by simp) fun _ => Nat.zero_le _) spliced

theorem Canonical.addOption_content (h : p.Canonical) {v : OptionValue}
    (added : p.addOption n v = .ok q) : ∃ pieces, n.pieces v = .ok pieces ∧ p.DiffersAt q n ∧
      optionsAt n q.options = optionsAt n p.options ++ occurrences n pieces := by
  obtain ⟨accepted, free, pieces, split, spliced⟩ := addOption_ok added
  obtain ⟨known, visible, -⟩ := OptionNumber.accepts_ok accepted
  obtain ⟨lawful, single⟩ := OptionNumber.pieces_lawful accepted split
  have spliced' : LawfulOptions (splicedOptions n pieces false p.options) := by
    refine h.lawful.spliced n pieces false lawful fun once => ?_
    have unset : p.isSet n = false := free.resolve_left (by simp [once])
    rw [if_neg (by decide), h.optionsAt_of_not_isSet known visible unset]
    simpa [occurrences] using single once
  exact ⟨pieces, split, h.splice_content spliced' spliced⟩

theorem Canonical.setOption_content (h : p.Canonical) {v : OptionValue}
    (done : p.setOption n v = .ok q) : ∃ pieces, n.pieces v = .ok pieces ∧ p.DiffersAt q n ∧
      optionsAt n q.options = occurrences n pieces := by
  obtain ⟨between, removed, added⟩ := setOption_ok done
  obtain ⟨dropped, none⟩ := h.removeOption_content removed
  obtain ⟨pieces, split, written, whole⟩ := (h.removeOption removed).addOption_content added
  exact ⟨pieces, split, dropped.trans written, by rw [whole, none, List.nil_append]⟩

/-! ## Tokens -/

theorem Canonical.setToken (h : p.Canonical) {t : ShortBytes} (done : p.setToken t = .ok q) :
    q.Canonical := by
  rw [setToken_eq] at done
  split at done
  · exact h.removeOption done
  · exact h.setOption done

theorem Canonical.token_setToken (h : p.Canonical) {t : ShortBytes}
    (done : p.setToken t = .ok q) : q.token = t ∧ p.DiffersAt q .token := by
  rw [(h.setToken done).token_eq]
  rw [setToken_eq] at done
  split at done
  · next empty =>
    obtain ⟨differs, none⟩ := h.removeOption_content done
    rw [none, ShortBytes.eq_empty empty]
    exact ⟨rfl, differs⟩
  · obtain ⟨pieces, split, differs, whole⟩ := h.setOption_content done
    have short : ¬ OptionNumber.token.maxLength < t.bytes.length := by
      have := t.length_le
      have limit : OptionNumber.token.maxLength = 8 := by decide
      omega
    simp only [OptionNumber.pieces, if_neg short, Except.ok.injEq] at split
    subst split
    refine ⟨?_, differs⟩
    rw [whole]
    simp [occurrences, ShortBytes.ofList?, t.length_le]

theorem DiffersAt.token (h : p.Canonical) (h' : q.Canonical) (differs : p.DiffersAt q n)
    (other : n ≠ .token) : q.token = p.token := by
  rw [h.token_eq, h'.token_eq, differs.others _ (Ne.symm other)]

theorem Canonical.setOption_apart (h : p.Canonical) {v : OptionValue}
    (done : p.setOption n v = .ok q) (other : n ≠ .token) :
    q.Canonical ∧ q.code = p.code ∧ q.token = p.token := by
  obtain ⟨-, -, differs, -⟩ := h.setOption_content done
  have kept := h.setOption done
  exact ⟨kept, differs.code, differs.token h kept other⟩

end Packet
end CoapNode
