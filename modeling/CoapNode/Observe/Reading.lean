import CoapNode.Decimal.Shortest
/-! Values that an observable resource publishes, and their numeric view. -/
namespace CoapNode

/-- The built-in numbers, integers of every width among the first two. A resource may publish any
type with a numeric view and an equality; other types than these are left out. -/
inductive Reading where
  | natural (n : UInt64)
  | integer (n : Int64)
  | single (x : Float32)
  | double (x : Float)
  deriving Inhabited

namespace Reading

def toFloat : Reading → Float
  | natural n => n.toFloat
  | integer n => n.toFloat
  | single x => x.toFloat
  | double x => x

/-- Whether a value changed, as its own type tells values apart: no number that is not one
equals itself, and the two zeros are equal. -/
def differs : Reading → Reading → Bool
  | natural a, natural b => a != b
  | integer a, integer b => a != b
  | single a, single b => !(a == b)
  | double a, double b => !(a == b)
  | _, _ => true

/-- The text of a payload: the shortest decimal that reads back, never with an exponent. -/
def text : Reading → String
  | natural n => toString n.toNat
  | integer n => toString n.toInt
  | single x => Decimal.render .plain .single x.toBits.toNat
  | double x => Decimal.render .plain .double x.toBits.toNat

/-- As printed inside a record, where whole floating-point numbers show a zero. -/
def inspect : Reading → String
  | natural n => toString n.toNat
  | integer n => toString n.toInt
  | single x => Decimal.render .detailed .single x.toBits.toNat
  | double x => Decimal.render .detailed .double x.toBits.toNat

end Reading
end CoapNode
