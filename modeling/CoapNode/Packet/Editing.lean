import CoapNode.Packet
/-! Changing a packet in place: its payload, and its options, of which occurrences are added,
removed and replaced. All three encode one stretch of the options anew, from the end of the
option before to the header of the option after, whose distance is then corrected in place.
Adding and removing refuse before they write; replacing does both, so it keeps a copy and puts
it back when the second of them fails. -/
namespace CoapNode

/-- A value to store, by the kind of option it is meant for. -/
inductive OptionValue where
  | uint (n : UInt32)
  | text (s : String)
  | bytes (b : List UInt8)
  | empty
  deriving DecidableEq

namespace OptionValue

def format : OptionValue → OptionFormat
  | uint _ => .uint
  | text _ => .text
  | bytes _ => .bytes
  | empty => .empty

end OptionValue

def textBytes (s : String) : List UInt8 := s.toUTF8.data.toList

/-- Splits at every occurrence of the delimiter; there is one piece more than there are
delimiters. -/
def splitPieces (delimiter : Char) : List Char → List (List Char)
  | [] => [[]]
  | c :: rest =>
    let pieces := splitPieces delimiter rest
    if c = delimiter then [] :: pieces
    else
      match pieces with
      | [] => [[c]]
      | piece :: others => (c :: piece) :: others

def pathPieces (delimiter : Char) (s : String) : List String :=
  ((splitPieces delimiter s.toList).filter (· ≠ [])).map String.ofList

def OptionNumber.accepts (n : OptionNumber) (v : OptionValue) : Except CodecError Unit :=
  if !n.known || isFencepost n then .error .unknownOption
  else if v.format ≠ n.format then .error .wrongFormat
  else .ok ()

/-- The occurrences a value becomes. Paths and queries become one per piece. -/
def OptionNumber.pieces (n : OptionNumber) (v : OptionValue) :
    Except CodecError (List (List UInt8)) :=
  match v with
  | .uint v =>
    if n.maxLength < (minimalBytes v).length then .error .valueTooLong
    else .ok [minimalBytes v]
  | .bytes b => if n.maxLength < b.length then .error .valueTooLong else .ok [b]
  | .empty => .ok [[]]
  | .text s =>
    match n.delimiter with
    | some d =>
      let pieces := (pathPieces d s).map textBytes
      if pieces.any fun b => n.maxLength < b.length then .error .valueTooLong else .ok pieces
    | none =>
      if s.isEmpty then .error .emptyText
      else if n.maxLength < (textBytes s).length then .error .valueTooLong
      else .ok [textBytes s]

/-- A change of a packet in place. What it wrote before it failed stays written. -/
abbrev Edit (capacity : Nat) := ExceptT CodecError (StateM (Packet capacity)) Unit

namespace Packet

variable {capacity : Nat}

/-- The last visible option before the edited stretch. Occurrences of the number
itself come before it, unless they are to be replaced. -/
def spanBefore (p : Packet capacity) (n : OptionNumber) (replace : Bool) : Option OptionEntry :=
  ((p.visibleEntries.takeWhile fun e => e.number ≤ n).filter fun e =>
    e.number < n || !replace).getLast?

/-- The first visible option after the edited stretch. -/
def spanAfter (p : Packet capacity) (n : OptionNumber) : Option OptionEntry :=
  (p.visibleEntries.dropWhile fun e => e.number ≤ n).head?

/-- Gives the first header a new distance and keeps its length. -/
def patchDelta (delta : Nat) : List UInt8 → List UInt8
  | [] => []
  | header :: rest => ((UInt8.ofNat delta <<< 4) ||| (header &&& 15)) :: rest

end Packet

namespace Edit

variable {capacity : Nat}

/-- A payload that would overlap the options is refused. -/
def setPayload (bytes : List UInt8) : Edit capacity := do
  let p : Packet capacity ← get
  if capacity < p.region.length + bytes.length then throw .noRoom
  else set ({ p with payload := bytes } : Packet capacity)

/-- Encodes the stretch around `n` anew to hold the given occurrences, after those already
present unless they are replaced. -/
def splice (n : OptionNumber) (pieces : List (List UInt8)) (replace : Bool) :
    Edit capacity := do
  let p : Packet capacity ← get
  let before := p.spanBefore n replace
  let after := p.spanAfter n
  let start := before.elim 0 (·.stop)
  let stop := after.elim p.region.length (·.start)
  let current := before.elim 0 (·.number)
  let next := after.map fun e => { number := e.number, length := e.value.length : Follower }
  let size := measureSpan current n next pieces
  if p.payloadStart < p.region.length - (stop - start) + size then throw .noRoom
  else
    let (bytes, last) := encodeSpan current n next pieces
    let tail := p.region.drop stop
    let tail := after.elim tail fun e => Packet.patchDelta (e.number - last) tail
    let region := p.region.take start ++ fillWindow size bytes ++ tail
    set ({ p with region } : Packet capacity).reindex

/-- Adds the occurrences of a value after those already set. -/
def addOption (n : OptionNumber) (v : OptionValue) : Edit capacity := do
  n.accepts v
  if !n.repeatable && (← get).isSet n then throw .optionAlreadySet
  else
    let pieces ← n.pieces v
    splice n pieces false

/-- Removes every occurrence; an option that is not set stays unset. -/
def removeOption (n : OptionNumber) : Edit capacity := do
  if !n.known || isFencepost n then throw .unknownOption
  else if !(← get).isSet n then pure ()
  else splice n [] true

/-- Replaces every occurrence by those of a value, or keeps them all. -/
def setOption (n : OptionNumber) (v : OptionValue) : Edit capacity := do
  let before : Packet capacity ← get
  tryCatch (do removeOption n; addOption n v) fun e => do
    set before
    throw e

end Edit

namespace Packet

variable {capacity : Nat}

/-- The packet after an edit, and how the edit ended. -/
def attempt (p : Packet capacity) (e : Edit capacity) :
    Packet capacity × Except CodecError Unit :=
  let (outcome, q) := StateT.run (ExceptT.run e) p
  (q, outcome)

def edited (p : Packet capacity) (e : Edit capacity) : Except CodecError (Packet capacity) :=
  match p.attempt e with
  | (q, .ok _) => .ok q
  | (_, .error cause) => .error cause

def setPayload (p : Packet capacity) (bytes : List UInt8) :
    Except CodecError (Packet capacity) := p.edited (.setPayload bytes)

def splice (p : Packet capacity) (n : OptionNumber) (pieces : List (List UInt8))
    (replace : Bool) : Except CodecError (Packet capacity) := p.edited (.splice n pieces replace)

def addOption (p : Packet capacity) (n : OptionNumber) (v : OptionValue) :
    Except CodecError (Packet capacity) := p.edited (.addOption n v)

def removeOption (p : Packet capacity) (n : OptionNumber) :
    Except CodecError (Packet capacity) := p.edited (.removeOption n)

def setOption (p : Packet capacity) (n : OptionNumber) (v : OptionValue) :
    Except CodecError (Packet capacity) := p.edited (.setOption n v)

end Packet
end CoapNode
