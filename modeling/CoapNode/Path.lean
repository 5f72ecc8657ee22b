import CoapNode.Packet.Fields
/-! How two resource paths relate. Leading slashes do not count. -/
namespace CoapNode

inductive PathRelation where
  | equal
  /-- The left path lives below the right one. -/
  | leftBelow
  /-- The right path lives below the left one. -/
  | rightBelow
  | unrelated
  deriving DecidableEq, Repr

namespace PathRelation

def label : PathRelation → String
  | equal => "Equal"
  | leftBelow => "LhsIsSubresource"
  | rightBelow => "RhsIsSubresource"
  | unrelated => "NotEqual"

/-- A path lives below another when the other followed by a slash begins it. -/
def ofChars : List Char → List Char → PathRelation
  | [], [] => equal
  | [], r :: _ => if r = '/' then rightBelow else unrelated
  | l :: _, [] => if l = '/' then leftBelow else unrelated
  | l :: ls, r :: rs => if l = r then ofChars ls rs else unrelated

end PathRelation

/-- Compares two paths character by character. -/
def relatePaths (left right : String) : PathRelation :=
  .ofChars (trimSlashes left).toList (trimSlashes right).toList

end CoapNode
