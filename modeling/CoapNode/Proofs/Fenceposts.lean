import CoapNode.Proofs.OptionCoding
/-! Where fenceposts stand. A list of options is written with exactly the fenceposts that
each option needs after its predecessor, so its bytes are a function of the list alone; a
span is one stretch of such a list. -/
namespace CoapNode

/-- The fenceposts that lead from one option to within reach of another whose value has
the given length. -/
def fenceposts (current target length : Nat) : List VisibleOption :=
  if _h : needsFencepost (target - current) length = true then
    let fence := current + fencepostDelta current
    ⟨fence, []⟩ :: fenceposts fence target length
  else []
termination_by target - current
decreasing_by exact fencepost_closer _h

/-- A list of options after option `current`, with the fenceposts it needs. -/
def bridge (current : Nat) : List VisibleOption → List VisibleOption
  | [] => []
  | o :: rest => fenceposts current o.number o.value.length ++ o :: bridge o.number rest

def encodeOptions (current : Nat) : List VisibleOption → List UInt8
  | [] => []
  | o :: rest =>
    let (posts, last) := encodeFenceposts current o.number o.value.length
    posts ++ encodeOption (o.number - last) o.value ++ encodeOptions o.number rest

/-- Numbers ascend from `current` on, and every value has a length that can be written. -/
def Ascending (current : Nat) : List VisibleOption → Prop
  | [] => True
  | o :: rest =>
    (current ≤ o.number ∧ o.number ≤ 65535 ∧ o.value.length ≤ maxTextLength) ∧
      Ascending o.number rest

theorem fencepostDelta_bounds (n : Nat) : 0 < fencepostDelta n ∧ fencepostDelta n ≤ 14 := by
  have : n % fencepostStep < fencepostStep := Nat.mod_lt _ (by decide)
  unfold fencepostDelta fencepostStep at *
  omega

theorem isFencepost_next (n : Nat) : isFencepost (n + fencepostDelta n) = true := by
  have : (n + fencepostDelta n) % 14 = 0 := by
    unfold fencepostDelta fencepostStep
    omega
  have := fencepostDelta_bounds n
  simp only [isFencepost, fencepostStep, Bool.and_eq_true, decide_eq_true_eq, beq_iff_eq]
  omega

/-! ## Between two options -/

theorem encodeFenceposts_eq (current target length : Nat) :
    encodeFenceposts current target length =
      (encodeRaw current (fenceposts current target length),
        lastNumber current (fenceposts current target length)) := by
  fun_induction fenceposts current target length with
  | case1 current far fence ih =>
    rw [encodeFenceposts, dif_pos far]
    simp only [ih, encodeRaw, lastNumber, fence]
  | case2 current near =>
    rw [encodeFenceposts, dif_neg near]
    rfl

theorem fenceposts_reach (current target length : Nat) :
    needsFencepost (target - lastNumber current (fenceposts current target length)) length =
      false := by
  fun_induction fenceposts current target length with
  | case1 current far fence ih => exact ih
  | case2 current near => exact Bool.eq_false_iff.mpr near

theorem fenceposts_last_le (current target length : Nat) (ordered : current ≤ target) :
    lastNumber current (fenceposts current target length) ≤ target := by
  fun_induction fenceposts current target length with
  | case1 current far fence ih =>
    apply ih
    have := fencepostDelta_bounds current
    rw [← Bool.not_eq_false, needsFencepost_eq_false] at far
    omega
  | case2 current near => exact ordered

theorem fenceposts_encodable (current target length : Nat) (small : target ≤ 65535) :
    Encodable current (fenceposts current target length) := by
  fun_induction fenceposts current target length with
  | case1 current far fence ih =>
    have bounds := fencepostDelta_bounds current
    have close : needsFencepost (fence - current) 0 = false := by
      rw [needsFencepost_eq_false]; omega
    rw [← Bool.not_eq_false, needsFencepost_eq_false] at far
    have below : fence ≤ 65535 := by omega
    exact ⟨⟨Nat.le_add_right _ _, below, Nat.zero_le _, close⟩, ih⟩
  | case2 current near => trivial

theorem mem_fenceposts {current target length : Nat} {o : VisibleOption}
    (member : o ∈ fenceposts current target length) :
    isFencepost o.number = true ∧ o.value = [] := by
  fun_induction fenceposts current target length with
  | case1 current far fence ih =>
    rcases List.mem_cons.mp member with rfl | later
    · exact ⟨isFencepost_next _, rfl⟩
    · exact ih later
  | case2 current near => cases member

/-! ## Lists of options -/

theorem encodeOptions_eq (current : Nat) (options : List VisibleOption) :
    encodeOptions current options = encodeRaw current (bridge current options) := by
  induction options generalizing current with
  | nil => rfl
  | cons o rest ih =>
    simp only [encodeOptions, encodeFenceposts_eq, bridge, encodeRaw_append, encodeRaw, ih,
      List.append_assoc]

@[simp] theorem lastNumber_bridge (current : Nat) (options : List VisibleOption) :
    lastNumber current (bridge current options) = lastNumber current options := by
  induction options generalizing current with
  | nil => rfl
  | cons o rest ih => simp only [bridge, lastNumber_append, lastNumber, ih]

theorem bridge_append (current : Nat) (xs ys : List VisibleOption) :
    bridge current (xs ++ ys) = bridge current xs ++ bridge (lastNumber current xs) ys := by
  induction xs generalizing current with
  | nil => rfl
  | cons o xs ih => simp only [List.cons_append, bridge, lastNumber, ih, List.append_assoc]

theorem encodeOptions_append (current : Nat) (xs ys : List VisibleOption) :
    encodeOptions current (xs ++ ys) =
      encodeOptions current xs ++ encodeOptions (lastNumber current xs) ys := by
  simp only [encodeOptions_eq, bridge_append, encodeRaw_append, lastNumber_bridge]

theorem ascending_append (current : Nat) (xs ys : List VisibleOption) :
    Ascending current (xs ++ ys) ↔ Ascending current xs ∧ Ascending (lastNumber current xs) ys := by
  induction xs generalizing current with
  | nil => simp [Ascending, lastNumber]
  | cons o xs ih => simp only [List.cons_append, Ascending, lastNumber, ih, and_assoc]

theorem bridge_encodable (current : Nat) (options : List VisibleOption)
    (ascending : Ascending current options) : Encodable current (bridge current options) := by
  induction options generalizing current with
  | nil => trivial
  | cons o rest ih =>
    obtain ⟨⟨ordered, small, fits⟩, tail⟩ := ascending
    have reach := fenceposts_reach current o.number o.value.length
    have last := fenceposts_last_le current o.number o.value.length ordered
    rw [bridge, encodable_append]
    exact ⟨fenceposts_encodable _ _ _ small, ⟨last, small, fits, reach⟩, ih _ tail⟩

theorem filter_bridge (current : Nat) (options : List VisibleOption)
    (visible : ∀ o ∈ options, isFencepost o.number = false) :
    (bridge current options).filter (fun o => !isFencepost o.number) = options := by
  induction options generalizing current with
  | nil => rfl
  | cons o rest ih =>
    have posts : (fenceposts current o.number o.value.length).filter
        (fun o => !isFencepost o.number) = [] := by
      rw [List.filter_eq_nil_iff]
      intro post member
      simp [(mem_fenceposts member).1]
    rw [bridge, List.filter_append, posts, List.nil_append,
      List.filter_cons_of_pos (by simp [visible o (List.mem_cons_self ..)]),
      ih _ fun x member => visible x (List.mem_cons_of_mem _ member)]

/-! ## Spans -/

theorem measureFenceposts_eq (current target length : Nat) :
    measureFenceposts current target length =
      (encodeFenceposts current target length).1.length := by
  fun_induction measureFenceposts current target length with
  | case1 current far ih =>
    rw [encodeFenceposts, dif_pos far, List.length_append, encodeOption_length, ih]
    rfl
  | case2 current near =>
    rw [encodeFenceposts, dif_neg near]
    rfl

theorem measureSpan_eq (current number : Nat) (next : Option Follower)
    (pieces : List (List UInt8)) :
    measureSpan current number next pieces = (encodeSpan current number next pieces).1.length := by
  induction pieces generalizing current with
  | nil =>
    cases next with
    | none => rfl
    | some f => exact measureFenceposts_eq _ _ _
  | cons piece pieces ih =>
    simp only [measureSpan, encodeSpan, measureFenceposts_eq, ih, List.length_append,
      encodeOption_length]

def occurrences (number : OptionNumber) (pieces : List (List UInt8)) : List VisibleOption :=
  pieces.map fun value => ⟨number, value⟩

/-- The occurrences of an option and the fenceposts written with them, in front of the first one and
behind the last. -/
def spanOptions (current number : Nat) (next : Option Follower) (pieces : List (List UInt8)) :
    List VisibleOption :=
  bridge current (occurrences number pieces) ++ next.elim [] fun f =>
    fenceposts (lastNumber current (occurrences number pieces)) f.number f.length

theorem encodeSpan_eq (current number : Nat) (next : Option Follower)
    (pieces : List (List UInt8)) :
    encodeSpan current number next pieces =
      (encodeRaw current (spanOptions current number next pieces),
        lastNumber current (spanOptions current number next pieces)) := by
  induction pieces generalizing current with
  | nil =>
    cases next with
    | none => rfl
    | some f => exact encodeFenceposts_eq current f.number f.length
  | cons piece pieces ih =>
    rw [encodeSpan, encodeFenceposts_eq, ih]
    simp only [spanOptions, occurrences, List.map_cons, bridge, lastNumber, encodeRaw,
      encodeRaw_append, lastNumber_append, lastNumber_bridge, List.append_assoc, List.cons_append]

theorem encodeSpan_end (current number : Nat) (pieces : List (List UInt8)) :
    (encodeSpan current number none pieces).1 =
      encodeOptions current (occurrences number pieces) := by
  rw [encodeSpan_eq, spanOptions, Option.elim_none, List.append_nil, encodeOptions_eq]

/-- With the follower's distance corrected, a span and its follower read like one list. -/
theorem encodeSpan_follower (current number : Nat) (pieces : List (List UInt8))
    (f : VisibleOption) :
    (encodeSpan current number (some ⟨f.number, f.value.length⟩) pieces).1 ++
        encodeOption (f.number -
          (encodeSpan current number (some ⟨f.number, f.value.length⟩) pieces).2) f.value =
      encodeOptions current (occurrences number pieces ++ [f]) := by
  simp only [encodeSpan_eq, spanOptions, Option.elim_some, encodeOptions_eq, bridge_append, bridge,
    encodeRaw_append, encodeRaw, lastNumber_append, lastNumber_bridge, List.append_nil,
    List.append_assoc]

end CoapNode
