import CoapNode.Packet
/-! Reading option values. Text is written piece by piece into a buffer that may be
bounded; a piece that does not fit is left out whole and ends the reading, and what was
written before stays. -/
namespace CoapNode

/-- Appends a piece unless the buffer would exceed its limit. -/
def writeWithin (limit : Option Nat) (written piece : String) : Option String :=
  match limit with
  | none => some (written ++ piece)
  | some size =>
    if written.utf8ByteSize + piece.utf8ByteSize ≤ size then some (written ++ piece) else none

def textOf? (bytes : List UInt8) : Option String := String.fromUTF8? ⟨bytes.toArray⟩

def writeSegments (limit : Option Nat) (written : String) :
    List (String × List UInt8) → String × Except CodecError Unit
  | [] => (written, .ok ())
  | (lead, segment) :: rest =>
    match writeWithin limit written lead with
    | none => (written, .error .noRoom)
    | some written =>
      match textOf? segment with
      | none => (written, .error .invalidUtf8)
      | some piece =>
        match writeWithin limit written piece with
        | none => (written, .error .noRoom)
        | some written => writeSegments limit written rest

/-- Nothing stands before the first segment and the delimiter, if any, before the others. -/
def leadSegments (delimiter : Option Char) : List (List UInt8) → List (String × List UInt8)
  | [] => []
  | first :: rest => ("", first) :: rest.map fun s => (delimiter.elim "" String.singleton, s)

def textBuffer : Nat := 128

namespace Packet

variable {capacity : Nat}

def checkFormat (p : Packet capacity) (n : OptionNumber) (format : OptionFormat) :
    Except CodecError Unit :=
  if !n.known then .error .unknownOption
  else if n.format ≠ format then .error .wrongFormat
  else if !p.isSet n then .error .optionNotSet
  else .ok ()

def firstSegment (p : Packet capacity) (n : OptionNumber) : Except CodecError (List UInt8) :=
  match p.segments n with
  | [] => .error .optionNotSet
  | s :: _ => .ok s

def readUInt (p : Packet capacity) (n : OptionNumber) : Except CodecError UInt32 := do
  p.checkFormat n .uint
  return bigEndian (← p.firstSegment n)

def readBytes (p : Packet capacity) (n : OptionNumber) : Except CodecError ShortBytes := do
  p.checkFormat n .bytes
  match ShortBytes.ofList? (← p.firstSegment n) with
  | some s => .ok s
  | none => .error .valueTooLong

/-- The segments joined by the option's delimiter, and how the reading ended. -/
def readText (p : Packet capacity) (n : OptionNumber) (limit : Option Nat) :
    String × Except CodecError Unit :=
  match p.checkFormat n .text with
  | .error e => ("", .error e)
  | .ok _ => writeSegments limit "" (leadSegments n.delimiter (p.segments n))

end Packet
end CoapNode
