/-! A seeded generator of random words: ChaCha with eight rounds, read as a stream of
32-bit words, and even draws from a range by rejection. -/
namespace CoapNode

/-- The stream of one key, and how many words of it were used. -/
structure Random where
  key : List UInt32
  position : Nat
  deriving DecidableEq, Repr

namespace Random

def rotateLeft (x n : UInt32) : UInt32 := (x <<< n) ||| (x >>> (32 - n))

def rotateRight (x : UInt32) (n : Nat) : UInt32 :=
  (x >>> UInt32.ofNat n) ||| (x <<< UInt32.ofNat ((32 - n) % 32))

def seedWord (state : UInt64) : UInt32 × UInt64 :=
  let state := state * 6364136223846793005 + 11634580027462260723
  let mixed := (((state >>> 18) ^^^ state) >>> 27).toUInt32
  (rotateRight mixed (state >>> 59).toNat, state)

def seedWords (state : UInt64) : Nat → List UInt32
  | 0 => []
  | n + 1 =>
    let (word, state) := seedWord state
    word :: seedWords state n

/-- The key is eight words spread from the seed. -/
def ofSeed (seed : UInt64) : Random := ⟨seedWords seed 8, 0⟩

abbrev Block := Vector UInt32 16

def quarterRound (s : Block) (a b c d : Fin 16) : Block :=
  let s := s.set a (s[a] + s[b])
  let s := s.set d (rotateLeft (s[d] ^^^ s[a]) 16)
  let s := s.set c (s[c] + s[d])
  let s := s.set b (rotateLeft (s[b] ^^^ s[c]) 12)
  let s := s.set a (s[a] + s[b])
  let s := s.set d (rotateLeft (s[d] ^^^ s[a]) 8)
  let s := s.set c (s[c] + s[d])
  s.set b (rotateLeft (s[b] ^^^ s[c]) 7)

/-- A round on the columns and one on the diagonals. -/
def doubleRound (s : Block) : Block :=
  let s := quarterRound s 0 4 8 12
  let s := quarterRound s 1 5 9 13
  let s := quarterRound s 2 6 10 14
  let s := quarterRound s 3 7 11 15
  let s := quarterRound s 0 5 10 15
  let s := quarterRound s 1 6 11 12
  let s := quarterRound s 2 7 8 13
  quarterRound s 3 4 9 14

def initialBlock (key : List UInt32) (number : Nat) : Block :=
  let k (i : Nat) : UInt32 := key[i]?.getD 0
  #v[0x61707865, 0x3320646e, 0x79622d32, 0x6b206574, k 0, k 1, k 2, k 3, k 4, k 5, k 6, k 7,
    UInt32.ofNat number, UInt32.ofNat (number >>> 32), 0, 0]

def block (key : List UInt32) (number : Nat) : Block :=
  let initial := initialBlock key number
  let mixed := doubleRound (doubleRound (doubleRound (doubleRound initial)))
  Vector.zipWith (· + ·) mixed initial

def nextWord (r : Random) : UInt32 × Random :=
  ((block r.key (r.position / 16)).get ⟨r.position % 16, Nat.mod_lt _ (by decide)⟩,
    { r with position := r.position + 1 })

def nextUInt16 (r : Random) : UInt16 × Random :=
  let (word, r) := r.nextWord
  (word.toUInt16, r)

def nextUInt64 (r : Random) : UInt64 × Random :=
  let (low, r) := r.nextWord
  let (high, r) := r.nextWord
  (low.toUInt64 ||| (high.toUInt64 <<< 32), r)

/-- Draws until the low half of the product with the range lies in the zone, and yields the
high half. Each draw succeeds with probability one half at least; after the last try the
result is zero. -/
def drawBelow (range zone : Nat) (r : Random) : Nat → Nat × Random
  | 0 => (0, r)
  | tries + 1 =>
    let (v, r) := r.nextUInt64
    let product := v.toNat * range
    if product % UInt64.size ≤ zone then (product / UInt64.size, r)
    else drawBelow range zone r tries

/-- The largest multiple of the range by a power of two below 2^64, less one. -/
def acceptanceZone (range : Nat) : Nat := (range <<< (63 - range.log2)) - 1

/-- An even draw from `low` to `high`, both included, of 64-bit numbers. Nothing can be
drawn from an empty range. -/
def drawRange? (r : Random) (low high : Nat) : Option (Nat × Random) :=
  if high < low then none
  else
    let range := (high - low + 1) % UInt64.size
    if range = 0 then
      let (v, r) := r.nextUInt64
      some (v.toNat, r)
    else
      let (v, r) := drawBelow range (acceptanceZone range) r 256
      some (low + v, r)

end Random
end CoapNode
