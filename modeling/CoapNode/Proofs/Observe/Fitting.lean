import CoapNode.Proofs.Observe.Notifying
import CoapNode.Proofs.Packet.Refinement
import CoapNode.Proofs.Packet.Writing
import CoapNode.Proofs.ShortBytes
/-! Notifications fit. Number, age and token are short, whatever they are, so all of them have room
beside any status that can be rendered; building a notification fails only if it cannot be. -/
namespace CoapNode

/-! ## Room -/

/-- An option takes a header before its value, and a fencepost before that at most. -/
theorem encodeOptions_length_le {options : List VisibleOption} {limit : Nat}
    (under : limit < longLength)
    (small : ∀ o ∈ options, o.number ≤ largestOption ∧ o.value.length ≤ limit) (current : Nat) :
    (encodeOptions current options).length ≤ (limit + 2) * options.length := by
  induction options generalizing current with
  | nil => exact Nat.zero_le _
  | cons o rest ih =>
    obtain ⟨known, short⟩ := small o (List.mem_cons_self ..)
    have later := ih (fun x member => small x (List.mem_cons_of_mem o member)) o.number
    have posts := measureFenceposts_le_one current known o.value.length
    have plain : measureOption o.value.length = o.value.length + 1 := by
      rw [measureOption, if_neg (by omega)]
    rw [encodeOptions_cons_length, List.length_cons, Nat.mul_succ]
    omega

theorem Packet.Canonical.sendable {p : Message} (h : p.Canonical) :
    p.serializedLength ≤ datagramBuffer := h.serializedLength_le

theorem Renderer.payload?_length {f : Renderer} {v : Reading} {payload : List UInt8}
    (rendered : f.payload? v = some payload) : payload.length ≤ payloadBuffer := by
  unfold Renderer.payload? at rendered
  obtain ⟨s, -, kept⟩ := Option.bind_eq_some_iff.mp rendered
  split at kept
  · next short =>
    cases kept
    have size : (textBytes s).length = s.utf8ByteSize := rfl
    rw [size]
    exact short
  · cases kept

/-! ## Filling a notification -/

/-- The packet is a notification with these options so far. -/
structure Drafts (p : Message) (options : List VisibleOption) : Prop where
  canonical : p.Canonical
  options : p.options = options
  blank : p.payload = []

/-- As few options as a notification has, and none longer than a token. -/
structure Brief (options : List VisibleOption) : Prop where
  few : options.length ≤ 3
  short : ∀ o ∈ options, o.value.length ≤ ShortBytes.capacity

variable {p q : Message} {options result : List VisibleOption}

theorem Brief.sublist (brief : Brief options) (fewer : result.Sublist options) : Brief result where
  few := Nat.le_trans fewer.length_le brief.few
  short := fun o member => brief.short o (fewer.mem member)

theorem Brief.room (brief : Brief options) (lawful : LawfulOptions options) :
    (encodeOptions 0 options).length ≤ 30 := by
  have small : ∀ o ∈ options, o.number ≤ largestOption ∧ o.value.length ≤ ShortBytes.capacity :=
    fun o member => ⟨lawful.small o member, brief.short o member⟩
  have taken := encodeOptions_length_le (by decide) small 0
  have few := brief.few
  unfold ShortBytes.capacity at taken
  omega

theorem Drafts.setOption (h : Drafts p options) {n : OptionNumber} {v : OptionValue}
    (carries : n.Carries v)
    (inserted : insertAfter n (occurrences n (n.written v)) (without n options) = result)
    (brief : Brief result) : ∃ q, p.setOption n v = .ok q ∧ Drafts q result := by
  have lawful : LawfulOptions result := by
    rw [← inserted, ← h.options]
    exact (h.canonical.lawful.without n).inserts carries (.inr (by simp [without]))
  have room := brief.room lawful
  have start := h.canonical.payloadStart_eq
  rw [h.blank, List.length_nil] at start
  have done : p.setOption n v = .ok (p.withOptions result) := by
    rw [h.canonical.setOption_iff, h.options, inserted]
    exact ⟨⟨carries, by omega⟩, rfl⟩
  exact ⟨_, done, h.canonical.setOption done, p.withOptions_options result lawful, h.blank⟩

theorem OptionNumber.carries_uint {n : OptionNumber} (w : UInt32) (known : n.known = true)
    (visible : isFencepost n = false) (format : n.format = .uint) (wide : 4 ≤ n.maxLength) :
    n.Carries (.uint w) where
  known := known
  visible := visible
  format := format.symm
  short := by
    rw [n.written_uint]
    intro value member
    rw [List.mem_singleton.mp member]
    exact Nat.le_trans (ShortBytes.minimalBytes_length_le w) wide
  nonempty := by simp

theorem OptionNumber.carries_token (t : ShortBytes) :
    OptionNumber.Carries .token (.bytes t.bytes) where
  known := by decide
  visible := by decide
  format := rfl
  short := by
    intro value member
    rw [List.mem_singleton.mp member]
    exact t.length_le
  nonempty := by simp

def ageOptions (age : UInt32) : List VisibleOption :=
  if age = defaultMaxAge then [] else [⟨.maxAge, minimalBytes age⟩]

def tokenOptions (t : ShortBytes) : List VisibleOption :=
  if t.isEmpty then [] else [⟨.token, t.bytes⟩]

variable {number payload : List UInt8} {token : ShortBytes}

theorem Drafts.setToken (h : Drafts p [⟨.observe, number⟩])
    (brief : Brief (⟨.observe, number⟩ :: tokenOptions token)) :
    ∃ q, p.setToken token = .ok q ∧ Drafts q (⟨.observe, number⟩ :: tokenOptions token) := by
  rw [Packet.setToken_eq]
  unfold tokenOptions at *
  split
  · have absent : without .token p.options = p.options :=
      without_of_absent (by rw [h.options]; simp; decide)
    rw [h.canonical.removeOption_eq (by decide) (by decide), absent, h.canonical.withOptions_self]
    exact ⟨p, rfl, h⟩
  · next full =>
    rw [if_neg full] at brief
    exact h.setOption (OptionNumber.carries_token token) rfl brief

/-- The age comes first, for every other option of a notification has a larger number. -/
theorem Drafts.setAge (h : Drafts p (⟨.observe, number⟩ :: tokenOptions token)) {age : UInt32}
    (brief : Brief (ageOptions age ++ ⟨.observe, number⟩ :: tokenOptions token)) :
    ∃ q, (if age = defaultMaxAge then .ok p else p.setMaxAge age) = .ok q ∧
      Drafts q (ageOptions age ++ ⟨.observe, number⟩ :: tokenOptions token) := by
  unfold ageOptions at *
  split
  · exact ⟨p, rfl, h⟩
  · next unusual =>
    rw [if_neg unusual] at brief
    have carries := OptionNumber.carries_uint (n := .maxAge) age (by decide) (by decide) (by decide)
      (by decide)
    refine h.setOption carries ?_ brief
    rw [OptionNumber.written_uint, tokenOptions]
    split <;> rfl

theorem Drafts.setPayload (h : Drafts p options) (brief : Brief options)
    (short : payload.length ≤ payloadBuffer) : p.setPayload payload = .ok { p with payload } := by
  have room := brief.room (h.options ▸ h.canonical.lawful)
  rw [← h.options, ← h.canonical.region] at room
  rw [Packet.setPayload_eq, if_neg (by unfold payloadBuffer at short; omega)]

namespace Observable

variable (s : Observable) (token : ShortBytes)

def noticeOptions : List VisibleOption :=
  ageOptions s.maxAge ++ ⟨.observe, minimalBytes s.counter⟩ :: tokenOptions token

theorem noticeOptions_brief : Brief (s.noticeOptions token) where
  few := by
    unfold noticeOptions ageOptions tokenOptions
    split <;> split <;> simp
  short := by
    have number := ShortBytes.minimalBytes_length_le s.counter
    have age := ShortBytes.minimalBytes_length_le s.maxAge
    have id := token.length_le
    unfold noticeOptions ageOptions tokenOptions ShortBytes.capacity
    split <;> split <;> simp <;> omega

theorem fillNotification_fits (short : payload.length ≤ payloadBuffer) :
    ∃ packet, s.fillNotification token payload = .ok packet ∧ packet.Canonical ∧
      packet.options = s.noticeOptions token ∧ packet.payload = payload := by
  have brief := s.noticeOptions_brief token
  have later := brief.sublist (List.sublist_append_right _ _)
  have blank : Drafts { Packet.fresh 128 with code := Code.content } [] :=
    ⟨blank_canonical, Packet.options_of_region_nil rfl, rfl⟩
  have carries := OptionNumber.carries_uint (n := .observe) s.counter (by decide) (by decide)
    (by decide) (by decide)
  obtain ⟨numbered, observed, drafted⟩ := blank.setOption carries
    (by rw [OptionNumber.written_uint]; rfl) (later.sublist (List.singleton_sublist.mpr (by simp)))
  obtain ⟨marked, tokened, drafted⟩ := drafted.setToken later
  obtain ⟨aged, stated, drafted⟩ := drafted.setAge brief
  have filled := drafted.setPayload brief short
  refine ⟨{ aged with payload }, ?_, drafted.canonical.setPayload filled, drafted.options, rfl⟩
  refine bind_eq_ok.mpr ⟨numbered, observed, bind_eq_ok.mpr ⟨marked, tokened, ?_⟩⟩
  split
  · next usual =>
    rw [if_pos usual, Except.ok.injEq] at stated
    rw [stated]
    exact filled
  · next unusual =>
    rw [if_neg unusual] at stated
    exact bind_eq_ok.mpr ⟨aged, stated, filled⟩

theorem notification_of_payload? (s : Observable) (token : ShortBytes) :
    match s.renderer.payload? s.status with
    | none => s.notification token = .error ⟨.payloadFormat, .notifying⟩
    | some payload => ∃ packet, s.notification token = .ok packet ∧ packet.Canonical ∧
        packet.options = s.noticeOptions token ∧ packet.payload = payload := by
  unfold notification
  cases rendered : s.renderer.payload? s.status with
  | none => rfl
  | some payload =>
    obtain ⟨packet, filled, whole⟩ :=
      s.fillNotification_fits token (Renderer.payload?_length rendered)
    simp only [filled]
    exact ⟨packet, rfl, whole⟩

theorem notification_eq_error_iff {s : Observable} {token : ShortBytes} {e : RuntimeError} :
    s.notification token = .error e ↔
      s.renderer.payload? s.status = none ∧ e = ⟨.payloadFormat, .notifying⟩ := by
  have building := s.notification_of_payload? token
  cases rendered : s.renderer.payload? s.status with
  | none =>
    rw [rendered] at building
    simp [building, eq_comm]
  | some payload =>
    rw [rendered] at building
    obtain ⟨p, built, -⟩ := building
    simp [built]

end Observable
end CoapNode
