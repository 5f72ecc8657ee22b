import CoapNode.Packet.Fields
import CoapNode.Packet.Printing
/-! Log records, and the one-line summary of a message. The summary is written into a
bounded buffer: of each of its three parts the first piece that does not fit ends the part,
and the later parts still follow. -/
namespace CoapNode

inductive Severity where
  | trace
  | debug
  | warn
  deriving DecidableEq, Repr

def Severity.label : Severity → String
  | trace => "TRACE"
  | debug => "DEBUG"
  | warn => "WARN"

structure LogRecord where
  severity : Severity
  text : String
  deriving DecidableEq, Repr

/-- Appends pieces until one does not fit. -/
def appendPieces (limit : Nat) (written : String) : List String → String
  | [] => written
  | piece :: rest =>
    match writeWithin (some limit) written piece with
    | some written => appendPieces limit written rest
    | none => written

def summaryBuffer : Nat := 128

def separated : List String → List String
  | [] => []
  | first :: rest => first :: rest.flatMap fun s => [", ", s]

namespace Packet

variable {capacity : Nat}

def summaryHead (p : Packet capacity) : List String := [p.kind.text, " ", p.code.text, " "]

/-- Left out when the path is empty or cannot be read. -/
def summaryPath (p : Packet capacity) : List String :=
  match p.uriPath with
  | .ok path => if path.isEmpty then [] else ["/", path, " "]
  | .error _ => []

def summaryTail (p : Packet capacity) : List String :=
  ["id=", toString p.id.val.toNat, " token=", "["] ++
    separated (p.token.bytes.map fun b => hexNumber b.toNat) ++
    ["]", " ", toString p.payload.length, " byte payload"]

def summary (p : Packet capacity) : String :=
  [p.summaryHead, p.summaryPath, p.summaryTail].foldl (appendPieces summaryBuffer) ""

end Packet
end CoapNode
