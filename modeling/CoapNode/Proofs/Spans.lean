import CoapNode.Proofs.Fenceposts
/-! Spans as they are emitted. A span goes byte by byte into a sink, first into one that only counts
and then into a window that drops what runs over its end. The numbers on the way have sixteen bits,
and a sum or difference that has not stops the emission. None does: every sink is given the same
bytes, the window of the size that was counted takes them all, and reading them yields the
occurrences and nothing but fenceposts beside them. -/
namespace CoapNode

/-! ## Sixteen-bit numbers -/

def difference16? (a b : UInt16) : Option UInt16 := if b ≤ a then some (a - b) else none

def sum16? (a b : UInt16) : Option UInt16 :=
  if a.toNat + b.toNat < UInt16.size then some (a + b) else none

theorem difference16?_of_le {a b : UInt16} (ordered : b.toNat ≤ a.toNat) :
    ∃ d, difference16? a b = some d ∧ d.toNat = a.toNat - b.toNat := by
  rw [← UInt16.le_iff_toNat_le] at ordered
  exact ⟨a - b, if_pos ordered, UInt16.toNat_sub_of_le a b ordered⟩

theorem le_of_difference16? {a b d : UInt16} (found : difference16? a b = some d) :
    b.toNat ≤ a.toNat := by
  unfold difference16? at found
  split at found
  · next ordered => exact UInt16.le_iff_toNat_le.mp ordered
  · cases found

theorem sum16?_of_lt {a b : UInt16} (fits : a.toNat + b.toNat < UInt16.size) :
    ∃ s, sum16? a b = some s ∧ s.toNat = a.toNat + b.toNat :=
  ⟨a + b, if_pos fits, by rw [UInt16.toNat_add, Nat.mod_eq_of_lt fits]⟩

/-! ## Sinks -/

class ByteSink (σ : Type) where
  put : σ → UInt8 → σ

structure ByteCount where
  total : Nat

instance : ByteSink ByteCount := ⟨fun c _ => ⟨c.total + 1⟩⟩

/-- Writes each byte at a place and goes on to the next; beyond the end nothing is written. -/
structure Window where
  bytes : List UInt8
  place : Nat

instance : ByteSink Window := ⟨fun w b => ⟨w.bytes.set w.place b, w.place + 1⟩⟩

variable {σ : Type} [ByteSink σ]

def feed (sink : σ) (bytes : List UInt8) : σ := bytes.foldl ByteSink.put sink

theorem feed_append (sink : σ) (xs ys : List UInt8) :
    feed sink (xs ++ ys) = feed (feed sink xs) ys := List.foldl_append

theorem feed_count (total : Nat) (bytes : List UInt8) :
    feed (ByteCount.mk total) bytes = ⟨total + bytes.length⟩ := by
  induction bytes generalizing total with
  | nil => rfl
  | cons b rest ih =>
    have counted : feed (ByteCount.mk total) (b :: rest) = _ := ih (total + 1)
    rw [counted, List.length_cons, Nat.add_assoc, Nat.add_comm 1]

theorem feed_window_past {room : List UInt8} {place : Nat} (past : room.length ≤ place)
    (bytes : List UInt8) : feed (Window.mk room place) bytes = ⟨room, place + bytes.length⟩ := by
  induction bytes generalizing place with
  | nil => rfl
  | cons b rest ih =>
    have dropped : feed (Window.mk room place) (b :: rest) =
        feed (Window.mk (room.set place b) (place + 1)) rest := rfl
    rw [dropped, List.set_eq_of_length_le past, ih (past.trans (Nat.le_add_right place 1)),
      List.length_cons, Nat.add_assoc, Nat.add_comm 1]

theorem feed_window (front rest bytes : List UInt8) :
    feed (Window.mk (front ++ rest) front.length) bytes =
      ⟨front ++ bytes.take rest.length ++ rest.drop bytes.length,
        front.length + bytes.length⟩ := by
  induction bytes generalizing front rest with
  | nil => simp [feed]
  | cons b bytes ih =>
    cases rest with
    | nil =>
      rw [feed_window_past (by rw [List.append_nil])]
      simp
    | cons old rest =>
      -- what was written joins the front
      have written : feed (Window.mk (front ++ old :: rest) front.length) (b :: bytes) =
          feed (Window.mk ((front ++ [b]) ++ rest) (front ++ [b]).length) bytes := by
        simp [feed, ByteSink.put]
      rw [written, ih]
      simp [Nat.add_assoc, Nat.add_comm 1]

theorem feed_window_full {room bytes : List UInt8} (size : room.length = bytes.length) :
    feed (Window.mk room 0) bytes = ⟨bytes, bytes.length⟩ := by
  have taken := feed_window [] room bytes
  rw [List.take_of_length_le size.ge, List.drop_of_length_le size.le] at taken
  simpa using taken

theorem fillWindow_eq_feed (size : Nat) (bytes : List UInt8) :
    fillWindow size bytes = (feed (Window.mk (List.replicate size 0) 0) bytes).bytes := by
  have taken := feed_window [] (List.replicate size 0) bytes
  simp only [List.nil_append, List.length_nil, List.length_replicate, List.drop_replicate] at taken
  rw [taken, fillWindow]

/-! ## Emission -/

/-- The header keeps four bits of the distance, and the extension a byte of the length. -/
def emitOption (sink : σ) (delta : UInt16) (value : List UInt8) : σ :=
  let high := delta.toUInt8 <<< 4
  if longLength ≤ value.length then
    let sink := ByteSink.put sink (high ||| UInt8.ofNat longLength)
    feed (ByteSink.put sink (UInt8.ofNat (value.length - longLength))) value
  else feed (ByteSink.put sink (high ||| UInt8.ofNat value.length)) value

/-- The next fencepost on the way to an option, if one is needed: its number and its distance. -/
def nextFencepost? (current target : UInt16) (length : Nat) :
    Option (Option (UInt16 × UInt16)) := do
  let distance ← difference16? target current
  if needsFencepost distance.toNat length then
    let step := UInt16.ofNat fencepostStep
    let fence ← sum16? current (← difference16? step (current % step))
    return some (fence, ← difference16? fence current)
  else return none

theorem emitOption_eq (sink : σ) (delta : UInt16) (value : List UInt8) :
    emitOption sink delta value = feed sink (encodeOption delta.toNat value) := by
  unfold emitOption encodeOption
  split <;> rfl

/-- Every turn of the loop has a result, since the number does not pass that of the option. -/
theorem nextFencepost?_cases {current target : UInt16} (ordered : current.toNat ≤ target.toNat)
    (length : Nat) :
    (needsFencepost (target.toNat - current.toNat) length = false ∧
        nextFencepost? current target length = some none) ∨
      needsFencepost (target.toNat - current.toNat) length = true ∧ ∃ fence distance,
        nextFencepost? current target length = some (some (fence, distance)) ∧
        fence.toNat = current.toNat + fencepostDelta current.toNat ∧
        distance.toNat = fence.toNat - current.toNat ∧ fence.toNat ≤ target.toNat := by
  obtain ⟨distance, found, gap⟩ := difference16?_of_le ordered
  cases far : needsFencepost (target.toNat - current.toNat) length with
  | false => exact .inl ⟨rfl, by simp [nextFencepost?, found, gap, far]⟩
  | true =>
    have step : (UInt16.ofNat fencepostStep).toNat = fencepostStep := rfl
    have phase : (current % UInt16.ofNat fencepostStep).toNat = current.toNat % fencepostStep := by
      rw [UInt16.toNat_mod, step]
    have below : current.toNat % fencepostStep < fencepostStep := Nat.mod_lt _ (by decide)
    obtain ⟨delta, ahead, delta_eq⟩ := difference16?_of_le (a := UInt16.ofNat fencepostStep)
      (b := current % UInt16.ofNat fencepostStep) (by rw [phase, step]; exact below.le)
    rw [phase, step] at delta_eq
    replace delta_eq : delta.toNat = fencepostDelta current.toNat := delta_eq
    -- a step is of fourteen at most, and the option is fifteen numbers away at least
    have bounds := fencepostDelta_bounds current.toNat
    have small := target.toNat_lt
    have reach := far
    rw [← Bool.not_eq_false, needsFencepost_eq_false] at reach
    obtain ⟨fence, sum, fence_eq⟩ := sum16?_of_lt (a := current) (b := delta)
      (by rw [UInt16.size]; omega)
    obtain ⟨back, difference, back_eq⟩ :=
      difference16?_of_le (a := fence) (b := current) (by omega)
    refine .inr ⟨rfl, fence, back, ?_, by omega, back_eq, by omega⟩
    simp [nextFencepost?, found, gap, far, ahead, sum, difference]

theorem nextFencepost?_closer {current target fence distance : UInt16} {length : Nat}
    (turn : nextFencepost? current target length = some (some (fence, distance))) :
    target.toNat - fence.toNat < target.toNat - current.toNat := by
  obtain ⟨gap, found, -⟩ := Option.bind_eq_some_iff.mp turn
  rcases nextFencepost?_cases (le_of_difference16? found) length with
    ⟨-, none⟩ | ⟨far, _, _, same, fence_eq, -, -⟩
  · rw [none] at turn
    cases turn
  · rw [same] at turn
    cases turn
    rw [fence_eq]
    exact fencepost_closer far

/-- Fenceposts one after the other until the option is within reach. -/
def emitFenceposts? (sink : σ) (current target : UInt16) (length : Nat) : Option (σ × UInt16) :=
  match _turn : nextFencepost? current target length with
  | none => none
  | some none => some (sink, current)
  | some (some (fence, distance)) =>
    emitFenceposts? (emitOption sink distance []) fence target length
termination_by target.toNat - current.toNat
decreasing_by exact nextFencepost?_closer _turn

/-- The occurrences of `number`, each behind the fenceposts it needs, and those that the option
behind the span needs, of which the number and the length of the value are given. -/
def emitSpan? (sink : σ) (current number : UInt16) (next : Option (UInt16 × Nat)) :
    List (List UInt8) → Option (σ × UInt16)
  | [] =>
    match next with
    | some (target, length) => emitFenceposts? sink current target length
    | none => some (sink, current)
  | segment :: segments => do
    let (sink, last) ← emitFenceposts? sink current number segment.length
    let distance ← difference16? number last
    emitSpan? (emitOption sink distance segment) number number next segments

/-- The loop never fails, and emits what is encoded. -/
theorem emitFenceposts?_eq (sink : σ) {current target : UInt16}
    (ordered : current.toNat ≤ target.toNat) (length : Nat) :
    ∃ last, emitFenceposts? sink current target length =
        some (feed sink (encodeFenceposts current.toNat target.toNat length).1, last) ∧
      last.toNat = (encodeFenceposts current.toNat target.toNat length).2 := by
  fun_induction emitFenceposts? sink current target length with
  | case1 sink current turn =>
    rcases nextFencepost?_cases ordered length with ⟨-, near⟩ | ⟨-, _, _, far, -⟩
    · rw [turn] at near
      cases near
    · rw [turn] at far
      cases far
  | case2 sink current turn =>
    rcases nextFencepost?_cases ordered length with ⟨near, -⟩ | ⟨-, _, _, far, -⟩
    · rw [encodeFenceposts, dif_neg (by simp [near])]
      exact ⟨current, rfl, rfl⟩
    · rw [turn] at far
      cases far
  | case3 sink current fence distance turn ih =>
    rcases nextFencepost?_cases ordered length with
      ⟨-, near⟩ | ⟨far, _, _, same, fence_eq, gap, before⟩
    · rw [turn] at near
      cases near
    · rw [turn] at same
      cases same
      obtain ⟨last, emitted, last_eq⟩ := ih before
      rw [encodeFenceposts, dif_pos far]
      simp only [← fence_eq, ← gap]
      rw [emitted, emitOption_eq, feed_append]
      exact ⟨last, rfl, last_eq⟩

def follower? (next : Option (UInt16 × Nat)) : Option Follower :=
  next.map fun f => ⟨f.1.toNat, f.2⟩

/-- A span is emitted as it is encoded, whatever the sink. -/
theorem emitSpan?_eq (sink : σ) {current number : UInt16} (ordered : current.toNat ≤ number.toNat)
    {next : Option (UInt16 × Nat)} (ahead : ∀ f ∈ next, number.toNat < f.1.toNat)
    (segments : List (List UInt8)) :
    let span := encodeSpan current.toNat number.toNat (follower? next) segments
    ∃ last, emitSpan? sink current number next segments = some (feed sink span.1, last) ∧
      last.toNat = span.2 := by
  induction segments generalizing sink current with
  | nil =>
    cases next with
    | none => exact ⟨current, rfl, rfl⟩
    | some f =>
      have less := ahead f rfl
      exact emitFenceposts?_eq sink (by omega) f.2
  | cons segment segments ih =>
    obtain ⟨last, emitted, last_eq⟩ := emitFenceposts?_eq sink ordered segment.length
    have before := fenceposts_last_le current.toNat number.toNat segment.length ordered
    simp only [encodeSpan, encodeFenceposts_eq] at emitted last_eq ⊢
    generalize fenceposts current.toNat number.toNat segment.length = posts at *
    obtain ⟨distance, found, gap⟩ :=
      difference16?_of_le (a := number) (b := last) (by omega)
    obtain ⟨final, later, final_eq⟩ := ih
      (emitOption (feed sink (encodeRaw current.toNat posts)) distance segment) (Nat.le_refl _)
    refine ⟨final, ?_, final_eq⟩
    rw [emitSpan?, emitted]
    simp only [Option.bind_eq_bind, Option.bind_some, found, later]
    rw [emitOption_eq, gap, last_eq, feed_append, feed_append]

/-! ## Reading a span -/

def EndToEnd (start stop : Nat) : List OptionEntry → Prop
  | [] => start = stop
  | e :: rest => e.start = start ∧ EndToEnd e.stop stop rest

theorem layOut_endToEnd (start current : Nat) (options : List VisibleOption) :
    EndToEnd start (start + (encodeRaw current options).length) (layOut start options) := by
  induction options generalizing start current with
  | nil => rfl
  | cons o rest ih =>
    refine ⟨rfl, ?_⟩
    rw [encodeRaw, List.length_append, encodeOption_length, ← Nat.add_assoc]
    exact ih _ _

theorem layOut_getLast? (start current : Nat) (options : List VisibleOption) :
    (layOut start options).getLast?.elim current (·.number) = lastNumber current options := by
  induction options generalizing start current with
  | nil => rfl
  | cons o rest ih =>
    rw [layOut, List.getLast?_cons, lastNumber, ← ih (start + measureOption o.value.length)]
    cases (layOut (start + measureOption o.value.length) rest).getLast? <;> rfl

theorem fenceposts_self (n length : Nat) : fenceposts n n length = [] := by
  rw [fenceposts, dif_neg]
  rw [Nat.sub_self, Bool.not_eq_true, needsFencepost_eq_false]
  omega

/-- Fenceposts without values, one for every fourteen numbers of the way and one more at most. -/
structure Posts (way : Nat) (posts : List VisibleOption) : Prop where
  empty : ∀ o ∈ posts, isFencepost o.number = true ∧ o.value = []
  few : posts.length ≤ way / fencepostStep + 1

theorem Posts.nil (way : Nat) : Posts way [] := ⟨by simp, Nat.zero_le _⟩

theorem Posts.mono {near far : Nat} {posts : List VisibleOption} (h : Posts near posts)
    (longer : near ≤ far) : Posts far posts :=
  ⟨h.empty, h.few.trans (Nat.add_le_add_right (Nat.div_le_div_right longer) 1)⟩

theorem fenceposts_posts (current target length : Nat) :
    Posts (target - current) (fenceposts current target length) := by
  -- every step is of fourteen if the first one is counted from the multiple of fourteen below
  have spread : fencepostStep * (fenceposts current target length).length ≤
      target - current + current % fencepostStep := by
    fun_induction fenceposts current target length with
    | case1 current far fence ih =>
      rw [← Bool.not_eq_false, needsFencepost_eq_false] at far
      rw [List.length_cons]
      simp only [fence, fencepostDelta, fencepostStep] at *
      omega
    | case2 current near => exact Nat.zero_le _
  refine ⟨fun o member => mem_fenceposts member, ?_⟩
  simp only [fencepostStep] at *
  omega

theorem bridge_occurrences_self (number : Nat) (segments : List (List UInt8)) :
    bridge number (occurrences number segments) = occurrences number segments := by
  induction segments with
  | nil => rfl
  | cons segment segments ih =>
    rw [occurrences, List.map_cons, bridge, fenceposts_self, List.nil_append]
    exact congrArg _ ih

theorem bridge_occurrences (current number : Nat) (segments : List (List UInt8)) :
    ∃ before, bridge current (occurrences number segments) =
      before ++ occurrences number segments ∧ Posts (number - current) before := by
  cases segments with
  | nil => exact ⟨[], rfl, Posts.nil _⟩
  | cons segment segments =>
    refine ⟨fenceposts current number segment.length, ?_, fenceposts_posts ..⟩
    have rest := bridge_occurrences_self number segments
    rw [occurrences, List.map_cons, bridge]
    exact congrArg (fun options => _ ++ (VisibleOption.mk number segment :: options)) rest

section

variable {current number : Nat} (ordered : current ≤ number) (small : number ≤ 65535)
  {segments : List (List UInt8)} (short : ∀ s ∈ segments, s.length ≤ maxTextLength)
include ordered small short

theorem occurrences_ascending : Ascending current (occurrences number segments) ∧
    current ≤ lastNumber current (occurrences number segments) ∧
    lastNumber current (occurrences number segments) ≤ number := by
  induction segments generalizing current with
  | nil => exact ⟨trivial, Nat.le_refl current, ordered⟩
  | cons segment segments ih =>
    obtain ⟨fits, rest⟩ := List.forall_mem_cons.mp short
    obtain ⟨ascending, first, last⟩ := ih (Nat.le_refl number) rest
    exact ⟨⟨⟨ordered, small, fits⟩, ascending⟩, ordered.trans first, last⟩

theorem spanOptions_encodable {next : Option Follower} (ahead : ∀ f ∈ next, f.number ≤ 65535) :
    Encodable current (spanOptions current number next segments) := by
  have ascending := (occurrences_ascending ordered small short).1
  rw [spanOptions, encodable_append, lastNumber_bridge]
  refine ⟨bridge_encodable _ _ ascending, ?_⟩
  cases next with
  | none => trivial
  | some f => exact fenceposts_encodable _ _ _ (ahead f rfl)

/-- The option behind the span is within reach of the last one written. -/
theorem spanOptions_reach {f : Follower} (ahead : number < f.number) :
    let last := lastNumber current (spanOptions current number (some f) segments)
    last ≤ f.number ∧ needsFencepost (f.number - last) f.length = false := by
  obtain ⟨-, -, below⟩ := occurrences_ascending ordered small short
  rw [spanOptions, lastNumber_append, lastNumber_bridge]
  exact ⟨fenceposts_last_le _ _ _ (below.trans ahead.le), fenceposts_reach _ _ _⟩

theorem spanOptions_split (next : Option Follower) : ∃ before after,
    spanOptions current number next segments = before ++ occurrences number segments ++ after ∧
      Posts (number - current) before ∧
      match next with
      | none => after = []
      | some f => Posts (f.number - current) after := by
  obtain ⟨before, bridged, posts⟩ := bridge_occurrences current number segments
  obtain ⟨-, first, -⟩ := occurrences_ascending ordered small short
  refine ⟨before, _, by rw [spanOptions, bridged], posts, ?_⟩
  cases next with
  | none => rfl
  | some f => exact (fenceposts_posts _ _ _).mono (Nat.sub_le_sub_left first f.number)

end

/-- What the bytes of a span say to a reader that starts from the option in front of it. -/
structure Reads (current number : Nat) (next : Option Follower) (segments : List (List UInt8))
    (bytes : List UInt8) (last : Nat) : Prop where
  /-- Nothing is left over. -/
  whole : EndToEnd 0 bytes.length (walkOptions 0 current bytes)
  /-- The occurrences are found, in order, and only fenceposts beside them. -/
  options : ∃ before after : List VisibleOption,
    (walkOptions 0 current bytes).map (fun e => VisibleOption.mk e.number e.value) =
      before ++ occurrences number segments ++ after ∧
    Posts (number - current) before ∧
    match next with
    | none => after = []
    | some f => Posts (f.number - current) after
  final : (walkOptions 0 current bytes).getLast?.elim current (·.number) = last
  /-- The distance of the option behind the span can be written, and not as the end marker. -/
  reach : ∀ f ∈ next, last ≤ f.number ∧ f.number - last ≤ 15 ∧
    ¬ (f.number - last = 15 ∧ f.length = 0)

theorem encodeSpan_reads {current number : Nat} (ordered : current ≤ number)
    (small : number ≤ 65535) {next : Option Follower}
    (ahead : ∀ f ∈ next, number < f.number ∧ f.number ≤ 65535) {segments : List (List UInt8)}
    (short : ∀ s ∈ segments, s.length ≤ maxTextLength) :
    let span := encodeSpan current number next segments
    Reads current number next segments span.1 span.2 := by
  have encodable := spanOptions_encodable ordered small short fun f behind => (ahead f behind).2
  have walked := walkOptions_encodeRaw 0 current _ encodable
  simp only [encodeSpan_eq]
  constructor
  case whole =>
    have tiled := layOut_endToEnd 0 current (spanOptions current number next segments)
    rw [Nat.zero_add] at tiled
    rw [walked]
    exact tiled
  case options =>
    rw [walked, layOut_map]
    exact spanOptions_split ordered small short next
  case final => rw [walked, layOut_getLast?]
  case reach =>
    rintro f rfl
    obtain ⟨below, reach⟩ := spanOptions_reach ordered small short (ahead f rfl).1
    rw [needsFencepost_eq_false] at reach
    exact ⟨below, by omega, by omega⟩

/-! ## The whole span -/

/-- A span is emitted alike into every sink, as it is encoded. -/
structure Emits (prev number : UInt16) (next : Option (UInt16 × Nat))
    (segments : List (List UInt8)) (bytes : List UInt8) (last : UInt16) : Prop where
  emitted : ∀ {σ : Type} [ByteSink σ] (sink : σ),
    emitSpan? sink prev number next segments = some (feed sink bytes, last)
  counted : emitSpan? (ByteCount.mk 0) prev number next segments = some (⟨bytes.length⟩, last)
  /-- A window of the size that was counted takes every byte. -/
  filled : ∀ room : List UInt8, room.length = bytes.length →
    emitSpan? (Window.mk room 0) prev number next segments = some (⟨bytes, bytes.length⟩, last)
  encoded : encodeSpan prev.toNat number.toNat (follower? next) segments = (bytes, last.toNat)
  measured : measureSpan prev.toNat number.toNat (follower? next) segments = bytes.length
  spliced : fillWindow (measureSpan prev.toNat number.toNat (follower? next) segments) bytes = bytes

theorem emits_encodeSpan {prev number : UInt16} (ordered : prev.toNat ≤ number.toNat)
    {next : Option (UInt16 × Nat)} (ahead : ∀ f ∈ next, number.toNat < f.1.toNat)
    (segments : List (List UInt8)) :
    let span := encodeSpan prev.toNat number.toNat (follower? next) segments
    ∃ last : UInt16, last.toNat = span.2 ∧ Emits prev number next segments span.1 last := by
  intro span
  obtain ⟨last, counted, last_eq⟩ := emitSpan?_eq (ByteCount.mk 0) ordered ahead segments
  have emitted : ∀ {σ : Type} [ByteSink σ] (sink : σ),
      emitSpan? sink prev number next segments = some (feed sink span.1, last) := by
    intro σ _ sink
    obtain ⟨other, emitted, other_eq⟩ := emitSpan?_eq sink ordered ahead segments
    rw [emitted, UInt16.toNat_inj.mp (other_eq.trans last_eq.symm)]
  have measured := measureSpan_eq prev.toNat number.toNat (follower? next) segments
  refine ⟨last, last_eq, emitted, ?_, fun room size => ?_, Prod.ext rfl last_eq.symm, measured, ?_⟩
  · rw [emitted, feed_count, Nat.zero_add]
  · rw [emitted, feed_window_full size]
  · rw [measured, fillWindow_eq_feed, feed_window_full (by simp [span])]

/-- A span between ascending numbers, whose values all have a length that can be written, is emitted
without leaving sixteen bits. It takes as many bytes as were measured, reads back as its occurrences
and fenceposts, and ends within reach of the option behind it. -/
theorem span_emitted_as_measured {prev number : UInt16} (ordered : prev ≤ number)
    {segments : List (List UInt8)} (short : ∀ s ∈ segments, s.length ≤ maxTextLength)
    {next : Option (UInt16 × Nat)} (ahead : ∀ f ∈ next, number < f.1) :
    ∃ bytes last, Emits prev number next segments bytes last ∧
      Reads prev.toNat number.toNat (follower? next) segments bytes last.toNat := by
  rw [UInt16.le_iff_toNat_le] at ordered
  replace ahead : ∀ f ∈ next, number.toNat < f.1.toNat := fun f behind =>
    UInt16.lt_iff_toNat_lt.mp (ahead f behind)
  have behind : ∀ f ∈ follower? next, number.toNat < f.number ∧ f.number ≤ 65535 := by
    intro f found
    obtain ⟨g, given, rfl⟩ := Option.map_eq_some_iff.mp found
    exact ⟨ahead g given, Nat.le_of_lt_succ g.1.toNat_lt⟩
  have reads := encodeSpan_reads ordered (Nat.le_of_lt_succ number.toNat_lt) behind short
  obtain ⟨last, last_eq, emits⟩ := emits_encodeSpan ordered ahead segments
  exact ⟨_, last, emits, by rw [last_eq]; exact reads⟩

/-- A fencepost stands in front of an empty value at distance fifteen, and two lead to an empty
value behind the span, whose number is the largest of all. -/
theorem span_emitted_as_measured_fenced :
    let segments : List (List UInt8) := [[], List.replicate 16 7]
    let next : Option (UInt16 × Nat) := some (65535, 0)
    let bytes := [0x60, 0x90, 0x0F, 0x01] ++ List.replicate 16 7 ++ [0x50, 0xE0]
    (65500 : UInt16) ≤ 65515 ∧ (∀ s ∈ segments, s.length ≤ maxTextLength) ∧
      (∀ f ∈ next, (65515 : UInt16) < f.1) ∧ Emits 65500 65515 next segments bytes 65534 ∧
      Reads 65500 65515 (follower? next) segments bytes 65534 := by
  intro segments next bytes
  have ordered : (65500 : UInt16) ≤ 65515 := by decide
  have short : ∀ s ∈ segments, s.length ≤ maxTextLength := by decide
  have ahead : ∀ f ∈ next, (65515 : UInt16) < f.1 := by decide
  obtain ⟨written, last, emits, reads⟩ := span_emitted_as_measured ordered short ahead
  have span : encodeSpan (65500 : UInt16).toNat (65515 : UInt16).toNat (follower? next) segments =
      (bytes, (65534 : UInt16).toNat) := by decide +kernel
  obtain ⟨same, final⟩ := Prod.mk.inj (span.symm.trans emits.encoded)
  cases UInt16.toNat_inj.mp final
  cases same
  exact ⟨ordered, short, ahead, emits, reads⟩

end CoapNode
