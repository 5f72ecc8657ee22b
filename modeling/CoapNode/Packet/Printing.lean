import CoapNode.Packet
import CoapNode.Text.Layout
/-! Packets as printed text. -/
namespace CoapNode

def Code.inspect (c : Code) : String :=
  recordText "Code" [("class", toString c.category.toNat), ("detail", toString c.detail.toNat)]

def MessageId.inspect (i : MessageId) : String := wrapped "Id" (toString i.val.toNat)

namespace Packet

def inspect {capacity : Nat} (p : Packet capacity) : String :=
  recordText "Packet" [
    ("ty", p.kind.label),
    ("code", p.code.inspect),
    ("id", p.id.inspect),
    ("options", mapText (p.options.map fun o =>
      (wrapped "OptNumber" (toString o.number), bytesText o.value))),
    ("payload", bytesText p.payload)]

end Packet
end CoapNode
