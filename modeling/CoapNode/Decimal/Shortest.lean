/-! Shortest decimals of binary floating-point numbers: the fewest digits that read back
as the number, and of those the nearest. All arithmetic is on natural numbers. A number is
a fraction, and so are the ends of the interval of reals that round to it. -/
namespace CoapNode.Decimal

/-- A positive number and the interval that rounds to it, over a common denominator. The
interval holds its ends when `closed` is set. -/
structure Rounding where
  low : Nat
  value : Nat
  high : Nat
  denominator : Nat
  closed : Bool

/-- `mantissa` times two to the `exponent`. At the least mantissa of a binade the
neighbour below is nearer than the one above. -/
def Rounding.ofBinary (mantissa : Nat) (exponent : Int) (narrowBelow : Bool) : Rounding :=
  let up := 1 <<< (exponent - 2).toNat
  { low := (4 * mantissa - if narrowBelow then 1 else 2) * up
    value := 4 * mantissa * up
    high := (4 * mantissa + 2) * up
    denominator := 1 <<< (2 - exponent).toNat
    closed := mantissa % 2 == 0 }

/-- Multiplied by a power of ten; negative powers go to the denominator. -/
def Rounding.scale (r : Rounding) (power : Int) : Rounding :=
  let up := Nat.pow 10 power.toNat
  { r with
    low := r.low * up, value := r.value * up, high := r.high * up
    denominator := r.denominator * Nat.pow 10 (-power).toNat }

def Rounding.holds (r : Rounding) (n : Nat) : Bool :=
  let x := n * r.denominator
  if r.closed then r.low ≤ x && x ≤ r.high else r.low < x && x < r.high

def digitCount (n : Nat) : Nat := (Nat.toDigits 10 n).length

def Rounding.magnitude (r : Rounding) : Int :=
  if r.denominator ≤ r.value then digitCount (r.value / r.denominator)
  else 1 - (digitCount ((r.denominator - 1) / r.value) : Int)

/-- Of the two whole numbers around the number the one that rounds to it; of two, the
nearer, and the upper one in the middle. -/
def Rounding.nearest? (r : Rounding) : Option Nat :=
  let below := r.value / r.denominator
  match r.holds below, r.holds (below + 1) with
  | false, false => none
  | true, false => some below
  | false, true => some (below + 1)
  | true, true =>
    if r.value - below * r.denominator < (below + 1) * r.denominator - r.value then some below
    else some (below + 1)

def Rounding.shortestFrom (r : Rounding) (digits : Nat) : Nat → Nat × Int
  | 0 => (0, 0)
  | tries + 1 =>
    let power := r.magnitude - digits
    match (r.scale (-power)).nearest? with
    | some n => (n, power)
    | none => r.shortestFrom (digits + 1) tries

/-- Whole digits and the power of ten they are multiplied by. Seventeen digits always
suffice for the widest format. -/
def Rounding.shortest (r : Rounding) : Nat × Int := r.shortestFrom 1 17

def digitsOf (n : Nat) (power : Int) : List Char × Int :=
  let all := Nat.toDigits 10 n
  let kept := (all.reverse.dropWhile (· == '0')).reverse
  (kept, power + (all.length - kept.length : Nat))

/-- Digits written out with a point where one is needed; `fraction` asks for a digit after
the point even when the number is whole. -/
def positional (digits : List Char) (power : Int) (fraction : Bool) : String :=
  if 0 ≤ power then
    String.ofList (digits ++ List.replicate power.toNat '0') ++ if fraction then ".0" else ""
  else
    let places := (-power).toNat
    if places < digits.length then
      String.ofList (digits.take (digits.length - places)) ++ "." ++
        String.ofList (digits.drop (digits.length - places))
    else "0." ++ String.ofList (List.replicate (places - digits.length) '0' ++ digits)

def scientific (digits : List Char) (power : Int) : String :=
  let exponent := power + (digits.length : Int) - 1
  String.ofList (digits.take 1) ++
    (if digits.length ≤ 1 then "" else "." ++ String.ofList (digits.drop 1)) ++
    "e" ++ toString exponent

structure Format where
  fractionBits : Nat
  exponentBits : Nat

def Format.single : Format := ⟨23, 8⟩

def Format.double : Format := ⟨52, 11⟩

inductive Class where
  | notANumber
  | infinite
  | zero
  | finite (r : Rounding)

namespace Format

def fraction (f : Format) (bits : Nat) : Nat := bits % (1 <<< f.fractionBits)

def exponentField (f : Format) (bits : Nat) : Nat :=
  (bits >>> f.fractionBits) % (1 <<< f.exponentBits)

def negative (f : Format) (bits : Nat) : Bool := bits.testBit (f.fractionBits + f.exponentBits)

def bias (f : Format) : Int := (1 <<< (f.exponentBits - 1) : Nat) - 2 + (f.fractionBits : Int)

def classify (f : Format) (bits : Nat) : Class :=
  let fraction := f.fraction bits
  let field := f.exponentField bits
  if field = (1 <<< f.exponentBits) - 1 then
    if fraction = 0 then .infinite else .notANumber
  else if field = 0 then
    if fraction = 0 then .zero else .finite (.ofBinary fraction (-f.bias) false)
  else
    .finite (.ofBinary ((1 <<< f.fractionBits) + fraction) (field - 1 - f.bias) (fraction == 0))

end Format

structure Style where
  /-- A whole number shows a zero after the point. -/
  fraction : Bool
  /-- Magnitudes outside these powers of ten are written with an exponent. -/
  positionalFrom : Option Int
  positionalTo : Option Int

/-- Never an exponent, and no zero after the point. -/
def Style.plain : Style := ⟨false, none, none⟩

/-- An exponent below 1e-4 and from 1e16 on. -/
def Style.detailed : Style := ⟨true, some (-3), some 16⟩

def Style.finite (s : Style) (r : Rounding) : String :=
  let (n, power) := r.shortest
  let (digits, power) := digitsOf n power
  let magnitude := power + (digits.length : Int)
  if (s.positionalFrom.all fun low => decide (low ≤ magnitude)) &&
      (s.positionalTo.all fun high => decide (magnitude ≤ high)) then
    positional digits power s.fraction
  else scientific digits power

def render (s : Style) (f : Format) (bits : Nat) : String :=
  let sign := if f.negative bits then "-" else ""
  match f.classify bits with
  | .notANumber => "NaN"
  | .infinite => sign ++ "inf"
  | .zero => sign ++ (if s.fraction then "0.0" else "0")
  | .finite r => sign ++ s.finite r

end CoapNode.Decimal
