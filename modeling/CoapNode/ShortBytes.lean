/-! Byte strings of at most eight bytes: tokens, entity tags and minimal integers. -/
namespace CoapNode

def hexByte (b : UInt8) : String :=
  let digit (n : Nat) : Char := "0123456789abcdef".toList[n]?.getD '0'
  String.ofList [digit (b.toNat / 16), digit (b.toNat % 16)]

def hexText (bytes : List UInt8) : String := String.join (bytes.map hexByte)

/-- A big-endian number; bytes beyond the low four are shifted out. -/
def bigEndian (bytes : List UInt8) : UInt32 :=
  bytes.foldl (fun n b => (n <<< 8) ||| b.toUInt32) 0

def wordBytes (n : UInt32) : List UInt8 :=
  [(n >>> 24).toUInt8, (n >>> 16).toUInt8, (n >>> 8).toUInt8, n.toUInt8]

/-- A number without leading zero bytes; zero is the empty string. -/
def minimalBytes (n : UInt32) : List UInt8 := (wordBytes n).dropWhile (· == 0)

structure ShortBytes where
  bytes : List UInt8
  length_le : bytes.length ≤ 8 := by decide
  deriving DecidableEq

namespace ShortBytes

def capacity : Nat := 8

def empty : ShortBytes := ⟨[], by decide⟩

instance : Inhabited ShortBytes := ⟨empty⟩

def ofList? (bytes : List UInt8) : Option ShortBytes :=
  if h : bytes.length ≤ 8 then some ⟨bytes, h⟩ else none

theorem minimalBytes_length_le (n : UInt32) : (minimalBytes n).length ≤ 4 :=
  (List.dropWhile_sublist _).length_le

def ofUInt (n : UInt32) : ShortBytes :=
  ⟨minimalBytes n, Nat.le_trans (minimalBytes_length_le n) (by decide)⟩

def toUInt (s : ShortBytes) : UInt32 := bigEndian s.bytes

def length (s : ShortBytes) : Nat := s.bytes.length

def isEmpty (s : ShortBytes) : Bool := s.bytes.isEmpty

def isFull (s : ShortBytes) : Bool := capacity ≤ s.length

def order : List UInt8 → List UInt8 → Ordering
  | [], [] => .eq
  | [], _ :: _ => .lt
  | _ :: _, [] => .gt
  | a :: as, b :: bs => (compare a b).then (order as bs)

instance : Ord ShortBytes := ⟨fun a b => order a.bytes b.bytes⟩

def inspect (s : ShortBytes) : String := "OpaqueData(" ++ hexText s.bytes ++ ")"

end ShortBytes
end CoapNode
