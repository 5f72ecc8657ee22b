import CoapNode.OptionTable
/-! Options as bytes. A header holds the distance from the previous option number and
the value's length, four bits each; fifteen in the length announces one more length byte.
Reading accumulates the distances. Writing a span, that is the occurrences of one option
between its neighbours, puts fenceposts wherever a distance would not fit, and
`measureSpan` counts the bytes without writing them. -/
namespace CoapNode

/-- The length nibble that announces an extension byte. -/
def longLength : Nat := 15

/-- The header that ends an option list whose count is not stated. -/
def endOfOptions : UInt8 := 0xF0

structure RawOption where
  delta : Nat
  value : List UInt8
  rest : List UInt8

namespace RawOption

/-- Nothing is cut when the value runs past the end. -/
def cut (header : UInt8) (length : Nat) (body : List UInt8) : Option RawOption :=
  if length ≤ body.length then
    some ⟨(header >>> 4).toNat, body.take length, body.drop length⟩
  else none

def read? : List UInt8 → Option RawOption
  | [] => none
  | header :: body =>
    if (header &&& 15).toNat = longLength then
      match body with
      | [] => none
      | extra :: body => cut header (extra.toNat + longLength) body
    else cut header (header &&& 15).toNat body

theorem cut_rest_le {header : UInt8} {length : Nat} {body : List UInt8} {o : RawOption}
    (h : cut header length body = some o) : o.rest.length ≤ body.length := by
  unfold cut at h
  split at h
  · cases h; simp
  · cases h

theorem read?_rest_lt {bytes : List UInt8} {o : RawOption} (h : read? bytes = some o) :
    o.rest.length < bytes.length := by
  unfold read? at h
  split at h
  · cases h
  · split at h
    · split at h
      · cases h
      · have := cut_rest_le h
        simp only [List.length_cons]
        omega
    · have := cut_rest_le h
      simp only [List.length_cons]
      omega

end RawOption

/-- Option numbers stop at the largest sixteen-bit number. -/
def advanceNumber (number delta : Nat) : Nat := min (number + delta) 65535

/-- An encoded option, with the offsets of its header and of the byte after its value. -/
structure OptionEntry where
  start : Nat
  stop : Nat
  number : Nat
  value : List UInt8
  deriving DecidableEq, Repr

/-- Every option from an offset on, up to the first that runs past the end. -/
def walkOptions (start number : Nat) (bytes : List UInt8) : List OptionEntry :=
  match _h : RawOption.read? bytes with
  | none => []
  | some o =>
    let number := advanceNumber number o.delta
    let stop := start + (bytes.length - o.rest.length)
    ⟨start, stop, number, o.value⟩ :: walkOptions stop number o.rest
termination_by bytes.length
decreasing_by exact RawOption.read?_rest_lt _h

/-- A distance of fifteen with no value would read as the end of the options, so it counts
as too far like every larger distance. -/
def needsFencepost (delta length : Nat) : Bool :=
  delta > 15 || (delta == 15 && length == 0)

def optionHeader (delta length : Nat) : UInt8 :=
  (UInt8.ofNat delta <<< 4) ||| UInt8.ofNat length

def encodeOption (delta : Nat) (value : List UInt8) : List UInt8 :=
  if longLength ≤ value.length then
    optionHeader delta longLength :: UInt8.ofNat (value.length - longLength) :: value
  else optionHeader delta value.length :: value

/-- The next fencepost is nearer to a target that is out of reach. -/
theorem fencepost_closer {current target length : Nat}
    (h : needsFencepost (target - current) length = true) :
    target - (current + fencepostDelta current) < target - current := by
  simp only [needsFencepost, Bool.or_eq_true, decide_eq_true_eq, Bool.and_eq_true,
    beq_iff_eq] at h
  have : current % fencepostStep < fencepostStep := Nat.mod_lt _ (by decide)
  unfold fencepostDelta fencepostStep at *
  omega

/-- The fenceposts that lead from one option to within reach of another whose value has
the given length, and the number of the last option written. -/
def encodeFenceposts (current target length : Nat) : List UInt8 × Nat :=
  if _h : needsFencepost (target - current) length = true then
    let fence := current + fencepostDelta current
    let (bytes, last) := encodeFenceposts fence target length
    (encodeOption (fence - current) [] ++ bytes, last)
  else ([], current)
termination_by target - current
decreasing_by exact fencepost_closer _h

structure Follower where
  number : Nat
  length : Nat

/-- The occurrences of `number` between an option numbered `current` and the follower, and
the number from which the follower's distance counts. -/
def encodeSpan (current number : Nat) (next : Option Follower) :
    List (List UInt8) → List UInt8 × Nat
  | [] =>
    match next with
    | some f => encodeFenceposts current f.number f.length
    | none => ([], current)
  | segment :: segments =>
    let (posts, last) := encodeFenceposts current number segment.length
    let (bytes, final) := encodeSpan number number next segments
    (posts ++ encodeOption (number - last) segment ++ bytes, final)

def measureOption (length : Nat) : Nat := length + if longLength ≤ length then 2 else 1

def measureFenceposts (current target length : Nat) : Nat :=
  if _h : needsFencepost (target - current) length = true then
    measureOption 0 + measureFenceposts (current + fencepostDelta current) target length
  else 0
termination_by target - current
decreasing_by exact fencepost_closer _h

def measureSpan (current number : Nat) (next : Option Follower) : List (List UInt8) → Nat
  | [] =>
    match next with
    | some f => measureFenceposts current f.number f.length
    | none => 0
  | segment :: segments =>
    measureFenceposts current number segment.length + measureOption segment.length +
      measureSpan number number next segments

/-- A window of a fixed size filled from the front: bytes beyond it are dropped, bytes
that are missing are zero. -/
def fillWindow (size : Nat) (bytes : List UInt8) : List UInt8 :=
  bytes.take size ++ List.replicate (size - bytes.length) 0

end CoapNode
