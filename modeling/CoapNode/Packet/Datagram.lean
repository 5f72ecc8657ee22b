import CoapNode.Packet.Editing
/-! Packets as datagrams. The header's low nibble counts the encoded options; from fifteen
options on it is fifteen and a marker ends them. Reading regenerates fenceposts instead of
keeping them, skips elective options it does not know, and refuses the message at the first
fault. -/
namespace CoapNode

def headerLength : Nat := 4

/-- The count that stands for options ended by a marker. -/
def unstatedCount : Nat := 15

/-- A refused datagram: why, and what is left of the packet. -/
structure Refusal (capacity : Nat) where
  cause : CodecError
  remains : Packet capacity

namespace Packet

variable {capacity : Nat}

def needsEndMarker (p : Packet capacity) : Bool := unstatedCount ≤ p.optionCount

/-- Exactly as many bytes as the datagram has. -/
def serializedLength (p : Packet capacity) : Nat :=
  headerLength + p.region.length + p.needsEndMarker.toNat + p.payload.length

def statedCount (p : Packet capacity) : UInt8 :=
  if p.needsEndMarker then UInt8.ofNat unstatedCount else UInt8.ofNat p.optionCount

def datagram (p : Packet capacity) : List UInt8 :=
  [(p.version <<< 6) ||| (p.kind.number <<< 4) ||| p.statedCount, p.code.toByte] ++
    p.id.toBytes ++ p.region ++ (if p.needsEndMarker then [endOfOptions] else []) ++ p.payload

/-- Overwrites the front of a buffer that is large enough, leaving the rest, and tells how
many bytes were written. -/
def serialize (p : Packet capacity) (buffer : List UInt8) :
    Except CodecError (List UInt8 × Nat) :=
  if p.serializedLength ≤ buffer.length then
    .ok (p.datagram ++ buffer.drop p.serializedLength, p.serializedLength)
  else .error .noRoom

def refuse (p : Packet capacity) (cause : CodecError) (context : ErrorContext) :
    Refusal capacity :=
  ⟨cause, { p.clear with fault := context }⟩

def overrun (p : Packet capacity) : Refusal capacity :=
  p.refuse .optionsOverrun { code := Code.badRequest }

def tooLarge (p : Packet capacity) (cause : CodecError) : Refusal capacity :=
  p.refuse cause { code := Code.requestEntityTooLarge }

def badOption (p : Packet capacity) (cause : CodecError) (n : OptionNumber) : Refusal capacity :=
  p.refuse cause { code := Code.badOption, option := some n }

/-- Writes what was read, or refuses the message for which there is no room. -/
def store (p : Packet capacity) (e : Edit capacity) :
    Except (Refusal capacity) (Packet capacity) :=
  match p.attempt e with
  | (q, .ok _) => .ok q
  | (q, .error cause) => .error (q.tooLarge cause)

/-- Stores one option of a datagram, skips it, or refuses the message. -/
def acceptOption (p : Packet capacity) (n : OptionNumber) (value : List UInt8) :
    Except (Refusal capacity) (Packet capacity) :=
  if isFencepost n then .ok p
  else if !n.known then
    if n.critical then .error (p.badOption .unknownCritical (min n 255)) else .ok p
  else if !n.repeatable && p.isSet n then
    if n.critical then .error (p.badOption .repeatedCritical n) else .ok p
  else if n.format == .text && value.isEmpty then
    if n.critical then .error (p.badOption .emptyText n) else .ok p
  else if n.maxLength < value.length then .error (p.badOption .valueTooLong n)
  else p.store (.splice n [value] false)

/-- Reads options until the stated number is reached, or, when none is stated, until the
marker, and yields the bytes that follow. -/
def acceptOptions (p : Packet capacity) (remaining : Option Nat) (number : Nat)
    (bytes : List UInt8) : Except (Refusal capacity) (Packet capacity × List UInt8) :=
  if remaining = some 0 then .ok (p, bytes)
  else if remaining = none ∧ bytes.head? = some endOfOptions then .ok (p, bytes.tail)
  else
    match _h : RawOption.read? bytes with
    | none => .error p.overrun
    | some o =>
      match p.acceptOption (advanceNumber number o.delta) o.value with
      | .error r => .error r
      | .ok q => q.acceptOptions (remaining.map (· - 1)) (advanceNumber number o.delta) o.rest
termination_by bytes.length
decreasing_by exact RawOption.read?_rest_lt _h

def readContent (p : Packet capacity) (remaining : Option Nat) (body : List UInt8) :
    Except (Refusal capacity) (Packet capacity) :=
  match p.acceptOptions remaining 0 body with
  | .error r => .error r
  | .ok (q, rest) => q.store (.setPayload rest)

def announcedOptions (first : UInt8) : Option Nat :=
  let count := (first &&& 15).toNat
  if count = unstatedCount then none else some count

def decode (capacity : Nat) (bytes : List UInt8) :
    Except (Refusal capacity) (Packet capacity) :=
  match bytes with
  | first :: code :: high :: low :: body =>
    match MessageKind.ofNumber? ((first >>> 4) &&& 3) with
    | .error e => .error ⟨e, fresh capacity⟩
    | .ok kind =>
      let p := { fresh capacity with
        version := first >>> 6, kind, code := Code.ofByte code, id := MessageId.ofBytes high low }
      if p.version ≠ protocolVersion then
        .error (p.refuse .wrongVersion { code := Code.notImplemented })
      else p.readContent (announcedOptions first) body
  | _ => .error ((fresh capacity).refuse .notCoap { code := Code.badRequest })

/-- Reads a datagram, of a refused one keeping the cause only. -/
def ofBytes? (capacity : Nat) (bytes : List UInt8) : Except CodecError (Packet capacity) :=
  match decode capacity bytes with
  | .ok p => .ok p
  | .error r => .error r.cause

end Packet
end CoapNode
