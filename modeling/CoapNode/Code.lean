/-! Message codes: a class and a detail packed into one byte and written `c.dd`.
A code built from parts may hold a detail the byte has no room for; the byte then
keeps the low bits only. -/
namespace CoapNode

structure Code where
  /-- Zero for the empty message and requests; two, four and five for responses. -/
  category : UInt8
  detail : UInt8
  deriving DecidableEq, Repr

namespace Code

def ofByte (b : UInt8) : Code := ⟨b >>> 5, b &&& 31⟩

def toByte (c : Code) : UInt8 := (c.category <<< 5) ||| (c.detail &&& 31)

/-- The code carried by empty acknowledgements and resets. -/
def empty : Code := ⟨0, 0⟩

instance : Inhabited Code := ⟨empty⟩

def get : Code := ⟨0, 1⟩
def post : Code := ⟨0, 2⟩
def put : Code := ⟨0, 3⟩
def delete : Code := ⟨0, 4⟩
def created : Code := ⟨2, 1⟩
def deleted : Code := ⟨2, 2⟩
def valid : Code := ⟨2, 3⟩
def changed : Code := ⟨2, 4⟩
def content : Code := ⟨2, 5⟩
def badRequest : Code := ⟨4, 0⟩
def unauthorized : Code := ⟨4, 1⟩
def badOption : Code := ⟨4, 2⟩
def forbidden : Code := ⟨4, 3⟩
def notFound : Code := ⟨4, 4⟩
def methodNotAllowed : Code := ⟨4, 5⟩
def notAcceptable : Code := ⟨4, 6⟩
def preconditionFailed : Code := ⟨4, 12⟩
def requestEntityTooLarge : Code := ⟨4, 13⟩
def unsupportedMediaType : Code := ⟨4, 15⟩
def internalServerError : Code := ⟨5, 0⟩
def notImplemented : Code := ⟨5, 1⟩
def badGateway : Code := ⟨5, 2⟩
def serviceUnavailable : Code := ⟨5, 3⟩
def gatewayTimeout : Code := ⟨5, 4⟩
def proxyingNotSupported : Code := ⟨5, 5⟩

def isEmpty (c : Code) : Bool := c == empty

/-- Request methods are the bytes 1 to 31. -/
def isRequest (c : Code) : Bool := 1 ≤ c.toByte && c.toByte ≤ 31

/-- Response statuses are the bytes 64 to 191. -/
def isResponse (c : Code) : Bool := 64 ≤ c.toByte && c.toByte ≤ 191

instance : Ord Code where
  compare a b := (compare a.category b.category).then (compare a.detail b.detail)

def text (c : Code) : String :=
  let detail := toString c.detail.toNat
  toString c.category.toNat ++ "." ++ (if detail.length < 2 then "0" ++ detail else detail)

end Code
end CoapNode
