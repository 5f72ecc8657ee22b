import CoapNode.Config
import Mathlib
/-! The waits for an acknowledgement. A message counts its transmissions one by one, a gap has a
closed form by the number of the transmission before it, and the longest time is a sum of gaps: all
three tell one schedule, whatever the first wait is drawn from. -/
namespace CoapNode

/-! ## Drawing the first wait -/

/-- A source of random numbers of 64 bits. What it draws from a range that is not empty lies in
the range. -/
structure Generator (G : Type) where
  draw? : G → Nat → Nat → Option (Nat × G)
  within : ∀ {low high : Nat}, low ≤ high → high < UInt64.size → ∀ g,
    ∃ v g', draw? g low high = some (v, g') ∧ low ≤ v ∧ v ≤ high

namespace Random

/-- The high half of a product with a number of 64 bits is below the other factor. -/
theorem drawBelow_lt {range : Nat} (positive : 0 < range) (zone : Nat) (r : Random) (tries : Nat) :
    (drawBelow range zone r tries).1 < range := by
  induction tries generalizing r with
  | zero => exact positive
  | succ tries ih =>
    unfold drawBelow
    simp only
    split
    · have bound : r.nextUInt64.1.toNat < UInt64.size := r.nextUInt64.1.toNat_lt
      rw [Nat.div_lt_iff_lt_mul (by decide), Nat.mul_comm range]
      exact Nat.mul_lt_mul_of_pos_right bound positive
    · exact ih _

theorem drawRange?_within {low high : Nat} (ordered : low ≤ high) (small : high < UInt64.size)
    (r : Random) : ∃ v r', r.drawRange? low high = some (v, r') ∧ low ≤ v ∧ v ≤ high := by
  unfold drawRange?
  rw [if_neg (Nat.not_lt_of_le ordered)]
  simp only
  split
  · next whole =>
    -- the length of a range is a multiple of 2^64 only if the range holds every number
    have most : r.nextUInt64.1.toNat < UInt64.size := r.nextUInt64.1.toNat_lt
    unfold UInt64.size at *
    exact ⟨_, _, rfl, by omega, by omega⟩
  · next part =>
    have below := drawBelow_lt (Nat.pos_of_ne_zero part)
      (acceptanceZone ((high - low + 1) % UInt64.size)) r 256
    have length := Nat.mod_le (high - low + 1) UInt64.size
    exact ⟨_, _, rfl, Nat.le_add_right .., by omega⟩

def generator : Generator Random := ⟨drawRange?, drawRange?_within⟩

end Random

namespace Generator

def greatest : Generator Unit where
  draw? _ low high := if low ≤ high then some (high, ()) else none
  within ordered _ g := ⟨_, g, if_pos ordered, ordered, Nat.le_refl _⟩

end Generator

/-! ## The schedule -/

namespace Strategy

/-- The waits after so many transmissions: all the same, or each twice the one before. -/
def waits (s : Strategy) (initial count : Nat) : List Nat :=
  match s with
  | delay .. => List.replicate count initial
  | exponential .. => List.iterate (2 * ·) initial count

variable {s : Strategy}

theorem iterate_double (initial count : Nat) : (2 * ·)^[count] initial = initial <<< count := by
  induction count with
  | zero => rfl
  | succ count ih => rw [Function.iterate_succ_apply', ih, Nat.shiftLeft_succ]

/-- The closed form of a gap agrees with the doubling. -/
theorem waits_eq (s : Strategy) (initial count : Nat) :
    s.waits initial count = (List.range count).map fun k => s.gap initial (k + 1) := by
  cases s with
  | delay low high => simp [waits, gap]
  | exponential low high =>
    apply List.ext_getElem
    · simp [waits]
    · intro k _ _
      simp [waits, gap, iterate_double]

theorem gap_mono (s : Strategy) {initial initial' : Nat} (less : initial ≤ initial')
    (attempt : Nat) : s.gap initial attempt ≤ s.gap initial' attempt := by
  cases s with
  | delay => exact less
  | exponential =>
    rw [gap, gap, Nat.shiftLeft_eq, Nat.shiftLeft_eq]
    exact Nat.mul_le_mul_right _ less

theorem maxTime_eq (s : Strategy) (count : Nat) :
    s.maxTime count = (s.waits s.greatest count).sum := by
  rw [waits_eq]
  induction count with
  | zero => rfl
  | succ count ih => rw [maxTime, ih, List.sum_range_succ]

theorem waits_sum_le {initial : Nat} (less : initial ≤ s.greatest) (count : Nat) :
    (s.waits initial count).sum ≤ s.maxTime count := by
  rw [maxTime_eq, waits_eq, waits_eq]
  exact List.sum_le_sum fun k _ => s.gap_mono less (k + 1)

end Strategy

/-! ## Counting the transmissions -/

namespace Backoff

/-- The state after the first transmission, with the first wait drawn by any generator. -/
def startFrom? {G : Type} (gen : Generator G) (s : Strategy) (maxAttempts : Nat) (g : G) :
    Option (Backoff × G) :=
  if s.hasJitter then
    (gen.draw? g s.least s.greatest).map fun (initial, g) => (⟨s, initial, 1, maxAttempts⟩, g)
  else some (⟨s, s.least, 1, maxAttempts⟩, g)

theorem start?_eq (s : Strategy) (maxAttempts : Nat) (r : Random) :
    start? s maxAttempts r = startFrom? Random.generator s maxAttempts r := rfl

theorem startFrom?_within {G : Type} (gen : Generator G) {s : Strategy}
    (ordered : s.least ≤ s.greatest) (small : s.greatest < UInt64.size) (maxAttempts : Nat)
    (g : G) : ∃ initial g',
      startFrom? gen s maxAttempts g = some (⟨s, initial, 1, maxAttempts⟩, g') ∧
        s.least ≤ initial ∧ initial ≤ s.greatest := by
  unfold startFrom?
  split
  · obtain ⟨initial, g', drawn, least, greatest⟩ := gen.within ordered small g
    exact ⟨initial, g', by rw [drawn]; rfl, least, greatest⟩
  · exact ⟨s.least, g, rfl, Nat.le_refl _, ordered⟩

def answers (b : Backoff) : Nat → List (Option Nat)
  | 0 => []
  | calls + 1 => b.nextAttempt.1 :: b.nextAttempt.2.answers calls

theorem answers_spent {b : Backoff} (spent : b.maxAttempts ≤ b.attempts) (calls : Nat) :
    b.answers calls = List.replicate calls none := by
  induction calls with
  | zero => rfl
  | succ calls ih => simp only [answers, nextAttempt, if_pos spent, ih, List.replicate_succ]

/-- The gaps after the attempts that are left, one by one, and nothing ever after. -/
theorem answers_left {b : Backoff} {left : Nat} (more : Nat)
    (limit : b.attempts + left = max b.maxAttempts b.attempts) :
    b.answers (left + more) =
      ((List.range left).map fun k => some (b.strategy.gap b.initial (b.attempts + 1 + k))) ++
        List.replicate more none := by
  induction left generalizing b with
  | zero =>
    rw [Nat.zero_add, answers_spent (by omega)]
    rfl
  | succ left ih =>
    have unspent : ¬ b.maxAttempts ≤ b.attempts := by omega
    have later := @ih { b with attempts := b.attempts + 1 } (by dsimp only; omega)
    rw [Nat.add_right_comm, answers]
    simp only [nextAttempt, if_neg unspent]
    rw [later, List.range_succ_eq_map, List.map_cons, List.map_map]
    simp only [delay, Function.comp_def, Nat.succ_eq_add_one, Nat.add_zero, List.cons_append,
      Nat.add_assoc, Nat.add_comm 1]

/-- A count just started keeps a strategy's schedule over so many transmissions. -/
structure Keeps (b : Backoff) (s : Strategy) (count : Nat) : Prop where
  least : s.least ≤ b.initial
  greatest : b.initial ≤ s.greatest
  /-- The wait after the first transmission and the waits it answers when asked for more, and
  that it answers none however often it is asked again. -/
  waits : ∀ more, some b.delay :: b.answers (count - 1 + more) =
    (s.waits b.initial count).map some ++ List.replicate more none
  total : (s.waits b.initial count).sum ≤ s.maxTime count
  longest : b.initial = s.greatest → (s.waits b.initial count).sum = s.maxTime count

theorem keeps {s : Strategy} {initial : Nat} (maxAttempts : Nat) (least : s.least ≤ initial)
    (greatest : initial ≤ s.greatest) :
    Keeps ⟨s, initial, 1, maxAttempts⟩ s (max maxAttempts 1) where
  least := least
  greatest := greatest
  waits more := by
    obtain ⟨left, count⟩ := Nat.exists_eq_add_of_le (Nat.le_max_right maxAttempts 1)
    rw [count, Nat.add_sub_cancel_left, answers_left more count.symm, Strategy.waits_eq,
      Nat.add_comm 1 left, List.range_succ_eq_map, List.map_cons, List.map_cons, List.map_map,
      List.map_map]
    simp only [delay, Function.comp_def, Nat.succ_eq_add_one, Nat.zero_add, List.cons_append,
      Nat.add_comm 1, Nat.add_right_comm]
  total := Strategy.waits_sum_le greatest _
  longest top := by rw [Strategy.maxTime_eq]; exact congrArg (fun w => (s.waits w _).sum) top

/-- Whatever generator the first wait is drawn from, a message waits by the strategy's schedule,
and no longer in all than the strategy's longest time. -/
theorem waits_of_strategy {G : Type} (gen : Generator G) {s : Strategy}
    (ordered : s.least ≤ s.greatest) (small : s.greatest < UInt64.size) (maxAttempts : Nat) :
    (∀ g, ∃ b g', startFrom? gen s maxAttempts g = some (b, g') ∧ b.Keeps s (max maxAttempts 1)) ∧
      ∀ r, ∃ b r', start? s maxAttempts r = some (b, r') ∧ b.Keeps s (max maxAttempts 1) := by
  constructor
  · intro g
    obtain ⟨initial, g', started, least, greatest⟩ :=
      startFrom?_within gen ordered small maxAttempts g
    exact ⟨_, g', started, keeps maxAttempts least greatest⟩
  · intro r
    obtain ⟨initial, r', started, least, greatest⟩ :=
      startFrom?_within Random.generator ordered small maxAttempts r
    exact ⟨_, r', (start?_eq ..).trans started, keeps maxAttempts least greatest⟩

/-- By default the waits after a message add up to 45 seconds at most. -/
theorem waits_of_default :
    (Config.strategy {}).least ≤ (Config.strategy {}).greatest ∧
      (Config.strategy {}).greatest < UInt64.size ∧
      ∃ b, startFrom? Generator.greatest (Config.strategy {}) (Config.maxAttempts {}) () =
          some (b, ()) ∧
        some b.delay :: b.answers 5 =
          [some 3000, some 6000, some 12000, some 24000, none, none] ∧
        ((Config.strategy {}).waits b.initial 4).sum = 45000 ∧
        Config.maxTransmitWait {} = 45000 := by
  refine ⟨by decide, by decide, ?_⟩
  obtain ⟨b, g, started, keeps⟩ := (waits_of_strategy Generator.greatest
    (s := Config.strategy {}) (by decide) (by decide) (Config.maxAttempts {})).1 ()
  have same : (⟨Config.strategy {}, 3000, 1, 4⟩, ()) = (b, g) := Option.some.inj started
  cases same
  exact ⟨_, rfl, keeps.waits 2, keeps.longest rfl, rfl⟩

end Backoff
end CoapNode
