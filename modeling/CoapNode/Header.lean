import CoapNode.CodecError
/-! The fixed header's message type and message id. -/
namespace CoapNode

inductive MessageKind where
  | confirmable
  | nonConfirmable
  | acknowledgement
  | reset
  deriving DecidableEq, Repr, Inhabited

namespace MessageKind

def ofNumber? (n : UInt8) : Except CodecError MessageKind :=
  if n = 0 then .ok confirmable
  else if n = 1 then .ok nonConfirmable
  else if n = 2 then .ok acknowledgement
  else if n = 3 then .ok reset
  else .error .notCoap

def number : MessageKind → UInt8
  | confirmable => 0
  | nonConfirmable => 1
  | acknowledgement => 2
  | reset => 3

def text : MessageKind → String
  | confirmable => "CON"
  | nonConfirmable => "NON"
  | acknowledgement => "ACK"
  | reset => "RST"

def label : MessageKind → String
  | confirmable => "Con"
  | nonConfirmable => "Non"
  | acknowledgement => "Ack"
  | reset => "Reset"

end MessageKind

/-- Sixteen bits in network order that pair a message with its acknowledgement, its
reset and its duplicates. -/
structure MessageId where
  val : UInt16
  deriving DecidableEq, Repr, Inhabited

namespace MessageId

def ofBytes (high low : UInt8) : MessageId := ⟨(high.toUInt16 <<< 8) ||| low.toUInt16⟩

def toBytes (i : MessageId) : List UInt8 := [(i.val >>> 8).toUInt8, i.val.toUInt8]

def next (i : MessageId) : MessageId := ⟨i.val + 1⟩

end MessageId
end CoapNode
