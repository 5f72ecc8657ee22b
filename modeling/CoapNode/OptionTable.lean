/-! The options a node knows, by number: what they carry, whether they repeat, how long
a value may be. Odd numbers are critical. Multiples of fourteen are fenceposts, empty
options that keep the distance between neighbours encodable. -/
namespace CoapNode

inductive OptionFormat where
  | empty
  | uint
  | text
  | bytes
  | unknown
  deriving DecidableEq, Repr, Inhabited

structure OptionTraits where
  format : OptionFormat
  repeatable : Bool
  maxLength : Nat
  deriving DecidableEq, Repr

/-- Longest value of one text segment: fifteen and an extension byte's worth. -/
def maxTextLength : Nat := 270

def OptionTraits.unassigned : OptionTraits := ⟨.unknown, false, 0⟩

def optionTable : List OptionTraits := [
  .unassigned,
  ⟨.uint, false, 2⟩,
  ⟨.uint, false, 4⟩,
  ⟨.text, true, maxTextLength⟩,
  ⟨.bytes, true, 8⟩,
  ⟨.text, false, maxTextLength⟩,
  ⟨.text, true, maxTextLength⟩,
  ⟨.uint, false, 2⟩,
  ⟨.text, true, maxTextLength⟩,
  ⟨.text, true, maxTextLength⟩,
  ⟨.uint, false, 4⟩,
  ⟨.bytes, false, 8⟩,
  ⟨.uint, true, 2⟩,
  ⟨.bytes, true, 8⟩,
  ⟨.empty, false, 0⟩,
  ⟨.text, true, maxTextLength⟩,
  .unassigned,
  .unassigned,
  ⟨.bytes, true, 5⟩,
  .unassigned,
  .unassigned,
  ⟨.empty, false, 0⟩]

def largestOption : Nat := 21

/-- Any number is an option number; those outside the table are unknown. -/
abbrev OptionNumber := Nat

def fencepostStep : Nat := 14

def isFencepost (n : Nat) : Bool := 0 < n && n % fencepostStep == 0

/-- How far the next fencepost after option `n` is. -/
def fencepostDelta (n : Nat) : Nat := fencepostStep - n % fencepostStep

namespace OptionNumber

def contentType : OptionNumber := 1
def maxAge : OptionNumber := 2
def proxyUri : OptionNumber := 3
def entityTag : OptionNumber := 4
def uriHost : OptionNumber := 5
def locationPath : OptionNumber := 6
def uriPort : OptionNumber := 7
def locationQuery : OptionNumber := 8
def uriPath : OptionNumber := 9
def observe : OptionNumber := 10
def token : OptionNumber := 11
def accept : OptionNumber := 12
def ifMatch : OptionNumber := 13
def fencepost : OptionNumber := 14
def uriQuery : OptionNumber := 15
def condition : OptionNumber := 18
def ifNoneMatch : OptionNumber := 21

def traits (n : OptionNumber) : OptionTraits := optionTable[n]?.getD .unassigned

def format (n : OptionNumber) : OptionFormat := (traits n).format

def repeatable (n : OptionNumber) : Bool := (traits n).repeatable

def maxLength (n : OptionNumber) : Nat := (traits n).maxLength

def known (n : OptionNumber) : Bool := n ≤ largestOption && format n != .unknown

/-- A receiver that does not know a critical option must refuse the message. -/
def critical (n : OptionNumber) : Bool := n % 2 == 1

def delimiter (n : OptionNumber) : Option Char :=
  if n = uriPath ∨ n = locationPath then some '/'
  else if n = uriQuery ∨ n = locationQuery then some '&'
  else none

def text (n : OptionNumber) : String :=
  match n with
  | 1 => "Content-Type"
  | 2 => "Max-Age"
  | 3 => "Proxy-Uri"
  | 4 => "ETag"
  | 5 => "Uri-Host"
  | 6 => "Location-Path"
  | 7 => "Uri-Port"
  | 8 => "Location-Query"
  | 9 => "Uri-Path"
  | 10 => "Observe"
  | 11 => "Token"
  | 12 => "Accept"
  | 13 => "If-Match"
  | 14 => "Fencepost"
  | 15 => "Uri-Query"
  | 18 => "Condition"
  | 21 => "If-None-Match"
  | n => "Option(" ++ toString n ++ ")"

end OptionNumber
end CoapNode
