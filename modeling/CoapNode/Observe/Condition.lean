import CoapNode.Observe.Reading
import CoapNode.ShortBytes
import CoapNode.Text.Layout
/-! Conditions an observer attaches to its registration. The first byte holds the kind in
five bits, one bit for confirmable notifications, and two bits for how the up to four bytes
of the threshold are read. -/
namespace CoapNode

inductive ConditionKind where
  /-- Stop observing. -/
  | cancellation
  /-- The value changed. -/
  | timeseries
  /-- The value changed and the threshold's seconds passed. -/
  | minResponseTime
  /-- The value changed or the threshold's seconds passed. -/
  | maxResponseTime
  /-- The value moved by the threshold at least. -/
  | step
  | allValuesSmaller
  | allValuesGreater
  | valueEquals
  | valueDiffers
  /-- The threshold's seconds passed. -/
  | periodic
  deriving DecidableEq, Repr, Inhabited

namespace ConditionKind

def all : List ConditionKind :=
  [cancellation, timeseries, minResponseTime, maxResponseTime, step, allValuesSmaller,
    allValuesGreater, valueEquals, valueDiffers, periodic]

def number : ConditionKind → UInt8
  | cancellation => 0
  | timeseries => 1
  | minResponseTime => 2
  | maxResponseTime => 3
  | step => 4
  | allValuesSmaller => 5
  | allValuesGreater => 6
  | valueEquals => 7
  | valueDiffers => 8
  | periodic => 9

def ofNumber? (n : UInt8) : Option ConditionKind := all[n.toNat]?

def label : ConditionKind → String
  | cancellation => "Cancellation"
  | timeseries => "Timeseries"
  | minResponseTime => "MinResponseTime"
  | maxResponseTime => "MaxResponseTime"
  | step => "Step"
  | allValuesSmaller => "AllValuesSmaller"
  | allValuesGreater => "AllValuesGreater"
  | valueEquals => "ValueEquals"
  | valueDiffers => "ValueDiffers"
  | periodic => "Periodic"

end ConditionKind

inductive ThresholdFormat where
  | integer
  /-- Seconds: plain below 128, else four bits times a power of two. -/
  | duration
  /-- A single-precision float. -/
  | float
  deriving DecidableEq, Repr, Inhabited

namespace ThresholdFormat

def number : ThresholdFormat → UInt8
  | integer => 0
  | duration => 1
  | float => 2

def ofNumber? (n : UInt8) : Option ThresholdFormat :=
  if n = 0 then some integer
  else if n = 1 then some duration
  else if n = 2 then some float
  else none

def label : ThresholdFormat → String
  | integer => "Integer"
  | duration => "Duration"
  | float => "Float"

end ThresholdFormat

/-- Decodes the duration encoding; the lower four bits are the exponent. -/
def durationSeconds (raw : UInt32) : UInt64 :=
  if raw < 0x80 then raw.toUInt64
  else (raw &&& 0xF0).toUInt64 <<< (raw &&& 0x0F).toUInt64

structure Condition where
  kind : ConditionKind
  /-- Notifications on its account are confirmable. -/
  confirmable : Bool
  format : ThresholdFormat
  /-- The threshold's bytes as a number. -/
  raw : UInt32
  deriving DecidableEq, Repr

namespace Condition

def standard : Condition := ⟨.timeseries, false, .integer, 0⟩

instance : Inhabited Condition := ⟨standard⟩

/-- Reads an option value; a malformed one has no meaning. -/
def parse? : List UInt8 → Option Condition
  | [] => none
  | head :: value =>
    if 4 < value.length then none
    else
      match ConditionKind.ofNumber? (head >>> 3), ThresholdFormat.ofNumber? (head &&& 3) with
      | some kind, some format => some ⟨kind, head &&& 4 != 0, format, bigEndian value⟩
      | _, _ => none

def head (c : Condition) : UInt8 :=
  (c.kind.number <<< 3) ||| (if c.confirmable then 4 else 0) ||| c.format.number

/-- The option value, its threshold without leading zero bytes. -/
def encode (c : Condition) : List UInt8 := c.head :: minimalBytes c.raw

def write (c : Condition) (buffer : List UInt8) : List UInt8 × Nat :=
  (c.encode ++ buffer.drop c.encode.length, c.encode.length)

def threshold (c : Condition) : Float :=
  match c.format with
  | .integer => c.raw.toFloat
  | .duration => (durationSeconds c.raw).toFloat
  | .float => (Float32.ofBits c.raw).toFloat

/-- Whether a notification of `new` is due when `last` was sent `elapsed` milliseconds ago.
A cancellation never holds. -/
def holds (c : Condition) (new last : Reading) (elapsed : Nat) : Bool :=
  let t := c.threshold
  let changed := new.differs last
  let seconds := elapsed.toUInt64.toFloat / 1000
  match c.kind with
  | .cancellation => false
  | .timeseries => changed
  | .minResponseTime => changed && t ≤ seconds
  | .maxResponseTime => changed || t ≤ seconds
  | .step => t ≤ (new.toFloat - last.toFloat).abs
  | .allValuesSmaller => new.toFloat < t
  | .allValuesGreater => t < new.toFloat
  | .valueEquals => new.toFloat == t
  | .valueDiffers => new.toFloat != t
  | .periodic => t ≤ seconds

def inspect (c : Condition) : String :=
  recordText "Condition" [
    ("ty", c.kind.label),
    ("reliability", if c.confirmable then "Con" else "Non"),
    ("value_type", c.format.label),
    ("raw", toString c.raw.toNat)]

end Condition
end CoapNode
