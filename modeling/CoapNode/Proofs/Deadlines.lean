import CoapNode.TimerQueue
import Mathlib
/-! Deadlines over a whole history of calls. An event is known by the place of the call that asked
for it, so that two requests for the same event at the same time stay apart. What waits in the queue
are the requests that no call has served yet, in their order; a pop serves the one that is due first
among those that elapsed, or none if none did. -/
namespace CoapNode.TimerQueue

/-! ## One pop -/

/-- The request at place `i` is due before the one at place `k`; of equal deadlines the first asked
for is. -/
def DueBefore (d : Deadline) (i : Nat) (e : Deadline) (k : Nat) : Prop :=
  d.time < e.time ∨ d.time = e.time ∧ i < k

/-- The entry that is due before all others that elapsed. -/
structure Earliest (now : Nat) (deadlines : List Deadline) (i : Nat) (d : Deadline) : Prop where
  found : deadlines[i]? = some d
  elapsed : d.time ≤ now
  first : ∀ (k : Nat) e, deadlines[k]? = some e → e.time ≤ now → k = i ∨ DueBefore d i e k

variable {now : Nat} {deadlines : List Deadline}

theorem Earliest.time_le {d e : Deadline} {i : Nat} (earliest : Earliest now deadlines i d)
    (member : e ∈ deadlines) (elapsed : e.time ≤ now) : d.time ≤ e.time := by
  obtain ⟨k, place⟩ := List.mem_iff_getElem?.mp member
  rcases earliest.first k e place elapsed with rfl | less | ⟨same, -⟩
  · rw [earliest.found] at place
    cases place
    exact Nat.le_refl _
  · exact less.le
  · exact same.le

theorem Earliest.head {d : Deadline} {rest : List Deadline} (elapsed : d.time ≤ now)
    (least : ∀ e ∈ rest, e.time ≤ now → d.time ≤ e.time) : Earliest now (d :: rest) 0 d where
  found := rfl
  elapsed := elapsed
  first := by
    intro k e found past
    rcases k with _ | k
    · exact .inl rfl
    · have least := least e (List.mem_of_getElem? found) past
      exact .inr ((Nat.lt_or_eq_of_le least).imp_right fun same => ⟨same, Nat.succ_pos k⟩)

theorem Earliest.cons {d e : Deadline} {i : Nat} (earliest : Earliest now deadlines i d)
    (later : e.time ≤ now → d.time < e.time) : Earliest now (e :: deadlines) (i + 1) d where
  found := earliest.found
  elapsed := earliest.elapsed
  first := by
    intro k f found past
    rcases k with _ | k
    · cases found
      exact .inr (.inl (later past))
    · rcases earliest.first k f found past with rfl | before
      · exact .inl rfl
      · exact .inr (before.imp_right fun tie => ⟨tie.1, Nat.succ_lt_succ tie.2⟩)

theorem earliest?_cases (now : Nat) (deadlines : List Deadline) :
    (earliest? now deadlines = none ∧ ∀ d ∈ deadlines, now < d.time) ∨
      ∃ i d, earliest? now deadlines = some (i, d.time) ∧ Earliest now deadlines i d := by
  induction deadlines with
  | nil => exact .inl ⟨rfl, by simp⟩
  | cons d rest ih =>
    by_cases past : d.time ≤ now
    · rcases ih with ⟨none, future⟩ | ⟨i, e, found, earliest⟩
      · have least : ∀ e ∈ rest, e.time ≤ now → d.time ≤ e.time := by
          intro e member elapsed
          exact absurd elapsed (Nat.not_le_of_lt (future e member))
        exact .inr ⟨0, d, by simp [earliest?, none, past], .head past least⟩
      · by_cases before : d.time ≤ e.time
        · have least : ∀ f ∈ rest, f.time ≤ now → d.time ≤ f.time := fun f member elapsed =>
            before.trans (earliest.time_le member elapsed)
          exact .inr ⟨0, d, by simp [earliest?, found, past, before], .head past least⟩
        · exact .inr ⟨i + 1, e, by simp [earliest?, found, past, before],
            earliest.cons fun _ => Nat.lt_of_not_le before⟩
    · rcases ih with ⟨none, future⟩ | ⟨i, e, found, earliest⟩
      · refine .inl ⟨by simp [earliest?, none, past], ?_⟩
        rintro e (_ | ⟨_, member⟩)
        · exact Nat.lt_of_not_le past
        · exact future e member
      · exact .inr ⟨i + 1, e, by simp [earliest?, found, past],
          earliest.cons fun elapsed => absurd elapsed past⟩

theorem nextDeadline?_eq_some {q : TimerQueue} {time : Nat} : q.nextDeadline? = some time ↔
    IsLeast {t | ∃ d ∈ q.deadlines, d.time = t} time := by
  rw [nextDeadline?, List.min?_eq_some_iff]
  simp [IsLeast, lowerBounds]

/-! ## The requests behind the entries -/

/-- The entries of the queue are the requests made at these places, in order. -/
structure Holds (requested : Nat → Option Deadline) (places : List Nat) (q : TimerQueue) :
    Prop where
  entries : places.map requested = q.deadlines.map some
  ascending : places.Pairwise (· < ·)

/-- The place of the request whose entry a pop removes. -/
def popped? (places : List Nat) (q : TimerQueue) (now : Nat) : Option Nat :=
  (earliest? now q.deadlines).bind fun found => places[found.1]?

/-- A pop serves the request of the earliest entry, and says what was asked for. -/
structure Serves (requested : Nat → Option Deadline) (places : List Nat) (now i : Nat)
    (answer : Option TimerEvent) : Prop where
  waits : i ∈ places
  served : ∃ d, requested i = some d ∧ d.time ≤ now ∧ answer = some d.event ∧
    ∀ k ∈ places, ∀ e, requested k = some e → e.time ≤ now → k = i ∨ DueBefore d i e k

/-- None of the requests elapsed. -/
def Idle (requested : Nat → Option Deadline) (places : List Nat) (now : Nat) : Prop :=
  ∀ i ∈ places, ∀ d, requested i = some d → now < d.time

namespace Holds

variable {requested : Nat → Option Deadline} {places : List Nat} {q : TimerQueue}
  (h : Holds requested places q)
include h

theorem getElem? (p : Nat) : (places[p]?).map requested = (q.deadlines[p]?).map some := by
  rw [← List.getElem?_map, ← List.getElem?_map, h.entries]

theorem place_of_entry {p : Nat} {d : Deadline} (found : q.deadlines[p]? = some d) :
    ∃ i, places[p]? = some i ∧ requested i = some d := by
  have behind := h.getElem? p
  rw [found, Option.map_some, Option.map_eq_some_iff] at behind
  exact behind

theorem entry_of_place {i : Nat} {d : Deadline} (waits : i ∈ places)
    (asked : requested i = some d) :
    ∃ p : Nat, places[p]? = some i ∧ q.deadlines[p]? = some d := by
  obtain ⟨p, place⟩ := List.mem_iff_getElem?.mp waits
  have behind := h.getElem? p
  rw [place, Option.map_some, asked] at behind
  obtain ⟨e, found, same⟩ := Option.map_eq_some_iff.mp behind.symm
  cases same
  exact ⟨p, place, found⟩

theorem schedule {n delay : Nat} {event : TimerEvent} (new : ∀ i ∈ places, i < n)
    (asked : requested n = some ⟨now + delay, event⟩) :
    Holds requested (places ++ [n]) (q.schedule now delay event) where
  entries := by
    simp only [TimerQueue.schedule, List.map_append, h.entries, List.map_cons, List.map_nil, asked]
  ascending := List.pairwise_append.mpr
    ⟨h.ascending, List.pairwise_singleton _ _, by simpa using new⟩

theorem filter_eq_eraseIdx {p i : Nat} (place : places[p]? = some i) :
    places.filter (fun k => some i ≠ some k) = places.eraseIdx p := by
  have distinct : places.Nodup := h.ascending.imp Nat.ne_of_lt
  obtain ⟨inside, rfl⟩ := List.getElem?_eq_some_iff.mp place
  rw [← distinct.erase_getElem p inside, distinct.erase_eq_filter]
  congr 1
  funext k
  simp [eq_comm, bne, BEq.beq]

/-- A pop serves the first request that is due, if any elapsed, and takes it away. -/
theorem pop_cases (now : Nat) :
    (popped? places q now = none ∧ (q.pop now).2 = none ∧ Idle requested places now ∧
        (q.pop now).1 = q) ∨
      ∃ i, popped? places q now = some i ∧ Serves requested places now i (q.pop now).2 ∧
        Holds requested (places.filter fun k => some i ≠ some k) (q.pop now).1 := by
  rcases earliest?_cases now q.deadlines with ⟨none, future⟩ | ⟨p, d, found, earliest⟩
  · refine .inl ⟨by rw [popped?, none]; rfl, by rw [pop, none], ?_, by rw [pop, none]⟩
    intro i waits d asked
    obtain ⟨p, -, entry⟩ := h.entry_of_place waits asked
    exact future d (List.mem_of_getElem? entry)
  · obtain ⟨i, place, asked⟩ := h.place_of_entry earliest.found
    have popped : q.pop now = (⟨q.deadlines.eraseIdx p⟩, some d.event) := by
      rw [pop, found]
      simp only [earliest.found, Option.map_some]
    refine .inr ⟨i, by rw [popped?, found]; exact place, ?_, ?_⟩
    · refine ⟨List.mem_of_getElem? place, d, asked, earliest.elapsed, by rw [popped], ?_⟩
      intro k waits e other past
      obtain ⟨r, spot, entry⟩ := h.entry_of_place waits other
      rcases earliest.first r e entry past with rfl | less | ⟨same, behind⟩
      · rw [spot] at place
        exact .inl (Option.some.inj place)
      · exact .inr (.inl less)
      · -- entries stand in the order of their requests
        obtain ⟨low, rfl⟩ := List.getElem?_eq_some_iff.mp place
        obtain ⟨high, rfl⟩ := List.getElem?_eq_some_iff.mp spot
        exact .inr (.inr ⟨same, List.pairwise_iff_getElem.mp h.ascending p r low high behind⟩)
    · rw [h.filter_eq_eraseIdx place, popped]
      exact ⟨by rw [← List.eraseIdx_map, ← List.eraseIdx_map, h.entries],
        h.ascending.sublist (List.eraseIdx_sublist ..)⟩

end Holds

/-! ## Calls in a row -/

/-- A call with the reading of the clock that it makes. Delays are counted in the parts of time that
the clock counts. -/
inductive Call where
  | schedule (now delay : Nat) (event : TimerEvent)
  | pop (now : Nat)

namespace Call

def reading : Call → Nat
  | schedule now _ _ => now
  | pop now => now

def request? : Call → Option Deadline
  | schedule now delay event => some ⟨now + delay, event⟩
  | pop _ => none

end Call

def perform (q : TimerQueue) : Call → TimerQueue
  | .schedule now delay event => q.schedule now delay event
  | .pop now => (q.pop now).1

def after (calls : List Call) : TimerQueue := calls.foldl perform empty

def requestAt (calls : List Call) (i : Nat) : Option Deadline := calls[i]?.bind Call.request?

/-- The places of the requests among the first `n` calls that none of these served, where
`served j = some i` says that the call at place `j` served the request at place `i`. -/
def waiting (calls : List Call) (served : Nat → Option Nat) (n : Nat) : List Nat :=
  (List.range n).filter fun i => (requestAt calls i).isSome ∧ ∀ j < n, served j ≠ some i

/-- Before every call the queue holds the requests that were not served yet, and only those. No
request is served twice. A pop serves the first request that is due among those that elapsed, and
none only if none elapsed. The next deadline is the smallest that is kept. -/
structure Accounts (calls : List Call) (served : Nat → Option Nat) : Prop where
  kept : ∀ n ≤ calls.length, (after (calls.take n)).deadlines =
    (waiting calls served n).filterMap (requestAt calls)
  once : ∀ i j k, served j = some i → served k = some i → j = k
  pops : ∀ j i, served j = some i → ∃ now, calls[j]? = some (.pop now) ∧
    Serves (requestAt calls) (waiting calls served j) now i ((after (calls.take j)).pop now).2
  idle : ∀ j now, calls[j]? = some (.pop now) →
    (((after (calls.take j)).pop now).2 = none ↔ served j = none) ∧
      (served j = none ↔ Idle (requestAt calls) (waiting calls served j) now)
  next : ∀ n time, (after (calls.take n)).nextDeadline? = some time ↔
    IsLeast {t | ∃ d ∈ (after (calls.take n)).deadlines, d.time = t} time

def servedBy (calls : List Call) (places : List Nat) (n : Nat) : Option Nat :=
  match calls[n]? with
  | some (.pop now) => popped? places (after (calls.take n)) now
  | _ => none

/-- The places that wait before the call at place `n`. -/
def places (calls : List Call) : Nat → List Nat
  | 0 => []
  | n + 1 =>
    ((places calls n).filter fun i => servedBy calls (places calls n) n ≠ some i) ++
      if (requestAt calls n).isSome then [n] else []

section

variable {calls : List Call} {served : Nat → Option Nat} {n : Nat}

theorem after_take_succ {call : Call} (found : calls[n]? = some call) :
    after (calls.take (n + 1)) = perform (after (calls.take n)) call := by
  rw [after, List.take_add_one, found, Option.toList_some, List.foldl_append]
  rfl

theorem mem_waiting {i : Nat} : i ∈ waiting calls served n ↔
    i < n ∧ (requestAt calls i).isSome = true ∧ ∀ j < n, served j ≠ some i := by
  simp [waiting]

theorem waiting_succ (earlier : ∀ j i, served j = some i → i < j) :
    waiting calls served (n + 1) =
      ((waiting calls served n).filter fun i => served n ≠ some i) ++
        if (requestAt calls n).isSome then [n] else [] := by
  have unserved : ∀ j < n + 1, served j ≠ some n := by
    intro j before found
    have := earlier j n found
    omega
  rw [waiting, List.range_succ, List.filter_append]
  congr 1
  · rw [waiting, List.filter_filter]
    refine List.filter_congr fun i _ => ?_
    simp only [Nat.forall_lt_succ_right, Bool.decide_and]
    grind
  · simp only [List.filter_cons, List.filter_nil]
    grind

theorem places_of_schedule {now delay : Nat} {event : TimerEvent}
    (found : calls[n]? = some (.schedule now delay event)) :
    places calls (n + 1) = places calls n ++ [n] := by
  simp [places, servedBy, requestAt, found, Call.request?]

theorem places_of_pop {now : Nat} (found : calls[n]? = some (.pop now)) :
    places calls (n + 1) = (places calls n).filter fun i =>
      popped? (places calls n) (after (calls.take n)) now ≠ some i := by
  simp [places, servedBy, requestAt, found, Call.request?]

/-- Call by call, the queue holds the requests whose places wait. -/
theorem holds_places (inside : n ≤ calls.length) :
    Holds (requestAt calls) (places calls n) (after (calls.take n)) ∧
      ∀ i ∈ places calls n, i < n := by
  induction n with
  | zero => exact ⟨⟨rfl, List.Pairwise.nil⟩, by simp [places]⟩
  | succ n ih =>
    obtain ⟨holds, old⟩ := ih (Nat.le_of_succ_le inside)
    have found : calls[n]? = some calls[n] := List.getElem?_eq_getElem inside
    rw [after_take_succ found]
    cases call : calls[n] with
    | schedule now delay event =>
      rw [call] at found
      rw [places_of_schedule found]
      refine ⟨holds.schedule old (by rw [requestAt, found]; rfl), ?_⟩
      intro i member
      rcases List.mem_append.mp member with before | last
      · exact Nat.lt_succ_of_lt (old i before)
      · exact Nat.lt_succ_of_le (List.mem_singleton.mp last).le
    | pop now =>
      rw [call] at found
      rw [places_of_pop found]
      refine ⟨?_, fun i member => Nat.lt_succ_of_lt (old i (List.mem_filter.mp member).1)⟩
      rcases holds.pop_cases now with ⟨none, -, -, same⟩ | ⟨i, some, -, popped⟩
      · rw [none, List.filter_eq_self.mpr (by simp), perform, same]
        exact holds
      · rw [some]
        exact popped

theorem mem_places_of_servedBy {j i : Nat} (found : servedBy calls (places calls j) j = some i) :
    i ∈ places calls j ∧ ∃ now, calls[j]? = some (.pop now) := by
  unfold servedBy at found
  split at found
  · next now pop =>
    obtain ⟨entry, -, place⟩ := Option.bind_eq_some_iff.mp found
    exact ⟨List.mem_of_getElem? place, now, pop⟩
  · cases found

theorem places_eq_waiting (calls : List Call) (n : Nat) :
    places calls n = waiting calls (fun j => servedBy calls (places calls j) j) n := by
  have earlier : ∀ j i, servedBy calls (places calls j) j = some i → i < j := by
    intro j i found
    obtain ⟨waits, now, pop⟩ := mem_places_of_servedBy found
    obtain ⟨inside, -⟩ := List.getElem?_eq_some_iff.mp pop
    exact (holds_places inside.le).2 i waits
  induction n with
  | zero => rfl
  | succ n ih => rw [waiting_succ earlier, ← ih]; rfl

theorem servedBy_once {i j k : Nat} (one : servedBy calls (places calls j) j = some i)
    (other : servedBy calls (places calls k) k = some i) : j ≤ k := by
  by_contra before
  have waits := (mem_places_of_servedBy one).1
  rw [places_eq_waiting, mem_waiting] at waits
  exact waits.2.2 k (Nat.lt_of_not_le before) other

theorem accounts_servedBy (calls : List Call) :
    Accounts calls fun j => servedBy calls (places calls j) j := by
  have pop_at : ∀ j now, calls[j]? = some (.pop now) →
      servedBy calls (places calls j) j = popped? (places calls j) (after (calls.take j)) now ∧
        Holds (requestAt calls) (places calls j) (after (calls.take j)) := by
    intro j now found
    obtain ⟨inside, -⟩ := List.getElem?_eq_some_iff.mp found
    exact ⟨by rw [servedBy, found], (holds_places inside.le).1⟩
  constructor
  case kept =>
    intro n inside
    have entries := congrArg (List.filterMap id) (holds_places inside).1.entries
    rw [← places_eq_waiting]
    simpa [List.filterMap_map] using entries.symm
  case once =>
    intro i j k one other
    exact Nat.le_antisymm (servedBy_once one other) (servedBy_once other one)
  case pops =>
    intro j i served
    obtain ⟨-, now, found⟩ := mem_places_of_servedBy served
    obtain ⟨same, holds⟩ := pop_at j now found
    rw [← places_eq_waiting]
    refine ⟨now, found, ?_⟩
    rcases holds.pop_cases now with ⟨none, -⟩ | ⟨k, some, serves, -⟩
    · rw [same, none] at served
      cases served
    · rw [same, some] at served
      cases served
      exact serves
  case idle =>
    intro j now found
    obtain ⟨same, holds⟩ := pop_at j now found
    rw [← places_eq_waiting, same]
    rcases holds.pop_cases now with ⟨none, silent, idle, -⟩ | ⟨i, some, serves, -⟩
    · simp [none, silent, idle]
    · obtain ⟨waits, d, asked, past, answer, -⟩ := serves
      have busy : ¬ Idle (requestAt calls) (places calls j) now := fun idle =>
        Nat.not_le_of_lt (idle i waits d asked) past
      simp [some, answer, busy]
  case next => exact fun n time => nextDeadline?_eq_some

theorem requestAt_eq_some {i : Nat} {d : Deadline} : requestAt calls i = some d ↔
    ∃ now delay, calls[i]? = some (.schedule now delay d.event) ∧ d.time = now + delay := by
  rw [requestAt, Option.bind_eq_some_iff]
  constructor
  · rintro ⟨call, found, asked⟩
    cases call with
    | schedule now delay event =>
      cases asked
      exact ⟨now, delay, found, rfl⟩
    | pop now => cases asked
  · rintro ⟨now, delay, found, time⟩
    exact ⟨_, found, by rw [Call.request?, ← time]⟩

theorem Accounts.served_of_answer (accounts : Accounts calls served) (j now : Nat)
    (event : TimerEvent) (pop : calls[j]? = some (.pop now))
    (answer : ((after (calls.take j)).pop now).2 = some event) :
    ∃ i < j, served j = some i ∧ ∃ d, requestAt calls i = some d ∧ d.event = event := by
  have busy : served j ≠ none := by
    rw [Ne, ← (accounts.idle j now pop).1, answer]
    exact Option.some_ne_none event
  obtain ⟨i, found⟩ := Option.ne_none_iff_exists'.mp busy
  obtain ⟨now, same, waits, d, asked, -, yielded, -⟩ := accounts.pops j i found
  cases pop.symm.trans same
  rw [answer] at yielded
  exact ⟨i, (mem_waiting.mp waits).1, found, d, asked, (Option.some.inj yielded).symm⟩

/-- While the clock does not go back, requests are served in the order in which they are due: one
that waited when another was served is due later, and so is one that was made since. -/
theorem Accounts.in_order (accounts : Accounts calls served)
    (steady : calls.Pairwise fun a b => a.reading ≤ b.reading) {j k i l : Nat} {d e : Deadline}
    (before : j < k) (one : served j = some i) (other : served k = some l)
    (asked : requestAt calls i = some d) (later : requestAt calls l = some e) :
    DueBefore d i e l := by
  obtain ⟨now, pop, waits, d, same, past, -, first⟩ := accounts.pops j i one
  cases same.symm.trans asked
  obtain ⟨-, -, waited, -⟩ := accounts.pops k l other
  obtain ⟨-, some, unserved⟩ := mem_waiting.mp waited
  rcases Nat.lt_trichotomy l j with old | rfl | new
  · -- it waited when the first one was chosen
    have beside : l ∈ waiting calls served j :=
      mem_waiting.mpr ⟨old, some, fun m less => unserved m (less.trans before)⟩
    rcases Nat.lt_or_ge now e.time with future | elapsed
    · exact .inl (Nat.lt_of_le_of_lt past future)
    · rcases first l beside e later elapsed with rfl | due
      · exact absurd one (unserved j before)
      · exact due
  · obtain ⟨_, _, schedule, -⟩ := requestAt_eq_some.mp later
    rw [pop] at schedule
    cases schedule
  · -- it was asked for when the deadline of the first one had passed
    obtain ⟨reading, delay, schedule, time⟩ := requestAt_eq_some.mp later
    obtain ⟨inside, here⟩ := List.getElem?_eq_some_iff.mp pop
    obtain ⟨inside', there⟩ := List.getElem?_eq_some_iff.mp schedule
    have forward := List.pairwise_iff_getElem.mp steady j l inside inside' new
    rw [here, there] at forward
    simp only [Call.reading] at forward
    have ahead := (mem_waiting.mp waits).1
    unfold DueBefore
    omega

end

/-- Whatever is scheduled and popped while the clock does not go back: the queue always holds what
was scheduled and not served yet, every pop serves the one of them that is due first if any elapsed,
no request is served twice or before its deadline, and requests are served in the order in which
they are due, those with one deadline in the order in which they were made. -/
theorem events_served_once_in_order (calls : List Call)
    (steady : calls.Pairwise fun a b => a.reading ≤ b.reading) :
    ∃ served, Accounts calls served ∧ ∀ j k i l d e, j < k →
      served j = some i → served k = some l →
      requestAt calls i = some d → requestAt calls l = some e → DueBefore d i e l :=
  ⟨_, accounts_servedBy calls, fun _ _ _ _ _ _ before one other asked later =>
    (accounts_servedBy calls).in_order steady before one other asked later⟩

/-- Two requests have one deadline, and the one made first is served first, at the very deadline;
the third waits on. -/
theorem events_served_once_in_order_tie :
    let calls : List Call := [.schedule 0 60000 (.maxAge ⟨0⟩), .schedule 0 2 (.retransmit ⟨2⟩),
      .schedule 1 1 (.retransmit ⟨1⟩), .pop 1, .pop 2, .pop 2, .pop 3]
    (calls.Pairwise fun a b => a.reading ≤ b.reading) ∧ ∃ served, Accounts calls served ∧
      served 3 = none ∧ served 4 = some 1 ∧ served 5 = some 2 ∧ served 6 = none ∧
      DueBefore ⟨2, .retransmit ⟨2⟩⟩ 1 ⟨2, .retransmit ⟨1⟩⟩ 2 ∧
      (after calls).nextDeadline? = some 60000 := by
  intro calls
  have steady : calls.Pairwise fun a b => a.reading ≤ b.reading := by decide
  obtain ⟨served, accounts, ordered⟩ := events_served_once_in_order calls steady
  have idle := fun j now found => (accounts.idle j now found).1
  have first : served 4 = some 1 := by
    obtain ⟨i, before, found, d, asked, event⟩ :=
      accounts.served_of_answer 4 2 (.retransmit ⟨2⟩) rfl (by decide)
    interval_cases i <;> cases asked <;> first | exact found | cases event
  have second : served 5 = some 2 := by
    obtain ⟨i, before, found, d, asked, event⟩ :=
      accounts.served_of_answer 5 2 (.retransmit ⟨1⟩) rfl (by decide)
    interval_cases i <;> cases asked <;> first | exact found | cases event
  exact ⟨steady, served, accounts, (idle 3 1 rfl).mp (by decide), first, second,
    (idle 6 3 rfl).mp (by decide), ordered 4 5 1 2 _ _ (by decide) first second rfl rfl, by decide⟩

end CoapNode.TimerQueue
