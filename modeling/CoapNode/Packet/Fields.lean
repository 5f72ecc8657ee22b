import CoapNode.Packet.Editing
import CoapNode.Packet.Reading
import CoapNode.ContentFormat
/-! The options that have a name of their own. A default port and an empty token are
expressed by leaving the option out. -/
namespace CoapNode

def defaultMaxAge : UInt32 := 60

def standardPort : UInt16 := 5683

def dropLeading (drop : Char → Bool) (s : String) : String :=
  String.ofList (s.toList.dropWhile drop)

def trimSlashes (s : String) : String := dropLeading (· == '/') s

def trimQuery (s : String) : String := dropLeading (fun c => c == '?' || c == '/') s

def narrow? (n : UInt32) : Option UInt16 :=
  if n.toNat < 65536 then some n.toUInt16 else none

namespace Edit

variable {capacity : Nat}

/-- The empty text unsets the option. -/
def setPieces (n : OptionNumber) (s : String) : Edit capacity :=
  if s.isEmpty then removeOption n else setOption n (.text s)

def setUriPath (path : String) : Edit capacity := setPieces .uriPath (trimSlashes path)

def setUriQuery (query : String) : Edit capacity := setPieces .uriQuery (trimQuery query)

def addUriQuery (query : String) : Edit capacity := addOption .uriQuery (.text (trimQuery query))

def setLocationPath (path : String) : Edit capacity := setPieces .locationPath (trimSlashes path)

def setUriHost (host : String) : Edit capacity := setOption .uriHost (.text host)

def setUriPort (port : UInt16) : Edit capacity :=
  if port = standardPort then removeOption .uriPort
  else setOption .uriPort (.uint port.toUInt32)

def setToken (token : ShortBytes) : Edit capacity :=
  if token.isEmpty then removeOption .token else setOption .token (.bytes token.bytes)

def setContentType (f : ContentFormat) : Edit capacity :=
  setOption .contentType (.uint f.number.toUInt32)

def addAccept (f : ContentFormat) : Edit capacity := addOption .accept (.uint f.number.toUInt32)

def setMaxAge (seconds : UInt32) : Edit capacity := setOption .maxAge (.uint seconds)

def setObserve (n : UInt32) : Edit capacity := setOption .observe (.uint n)

def addCondition (raw : List UInt8) : Edit capacity := addOption .condition (.bytes raw)

end Edit

namespace Packet

variable {capacity : Nat}

def textOrEmpty (p : Packet capacity) (n : OptionNumber) : Except CodecError String :=
  match p.readText n (some textBuffer) with
  | (s, .ok _) | (s, .error .optionNotSet) => .ok s
  | (_, .error e) => .error e

def uriPath (p : Packet capacity) : Except CodecError String := p.textOrEmpty .uriPath

def uriQuery (p : Packet capacity) : Except CodecError String := p.textOrEmpty .uriQuery

def locationPath (p : Packet capacity) : Except CodecError String := p.textOrEmpty .locationPath

def uriHost (p : Packet capacity) : Except CodecError String :=
  match p.readText .uriHost (some textBuffer) with
  | (s, .ok _) => .ok s
  | (_, .error e) => .error e

def uriPort (p : Packet capacity) : UInt16 :=
  match p.readUInt .uriPort with
  | .ok n => (narrow? n).getD standardPort
  | .error _ => standardPort

def token (p : Packet capacity) : ShortBytes :=
  match p.readBytes .token with
  | .ok t => t
  | .error _ => .empty

def setToken (p : Packet capacity) (token : ShortBytes) : Except CodecError (Packet capacity) :=
  p.edited (.setToken token)

def contentType (p : Packet capacity) : Option ContentFormat :=
  match p.readUInt .contentType with
  | .ok n => (narrow? n).map .ofNumber
  | .error _ => none

/-- Every content format asked for; of each value the last two bytes count. -/
def accept (p : Packet capacity) : List ContentFormat :=
  (p.segments .accept).map fun b => .ofNumber (bigEndian b).toUInt16

def maxAge (p : Packet capacity) : UInt32 :=
  match p.readUInt .maxAge with
  | .ok n => n
  | .error _ => defaultMaxAge

def setMaxAge (p : Packet capacity) (seconds : UInt32) : Except CodecError (Packet capacity) :=
  p.edited (.setMaxAge seconds)

def observe (p : Packet capacity) : Except CodecError UInt32 := p.readUInt .observe

def setObserve (p : Packet capacity) (n : UInt32) : Except CodecError (Packet capacity) :=
  p.edited (.setObserve n)

def conditions (p : Packet capacity) : List (List UInt8) := p.segments .condition

end Packet
end CoapNode
