import CoapNode.ShortBytes
import CoapNode.Text.Unprinted
/-! Printed values: lists in brackets, records with named fields, optional values, and
quoted text. -/
namespace CoapNode

def bracketed (items : List String) : String := "[" ++ String.intercalate ", " items ++ "]"

def bytesText (bytes : List UInt8) : String := bracketed (bytes.map fun b => toString b.toNat)

def recordText (name : String) (fields : List (String × String)) : String :=
  name ++ " \x7b " ++ String.intercalate ", " (fields.map fun (f, v) => f ++ ": " ++ v) ++ " \x7d"

def mapText (items : List (String × String)) : String :=
  "\x7b" ++ String.intercalate ", " (items.map fun (k, v) => k ++ ": " ++ v) ++ "\x7d"

def wrapped (name value : String) : String := name ++ "(" ++ value ++ ")"

def optionText : Option String → String
  | none => "None"
  | some v => wrapped "Some" v

def boolText (b : Bool) : String := if b then "true" else "false"

/-- Lower-case hexadecimal without leading zeros. -/
def hexNumber (n : Nat) : String := String.ofList (Nat.toDigits 16 n)

/-- Quotes, backslashes and characters that do not print are escaped. -/
def escapeChar (c : Char) : String :=
  if c = '"' then "\\\""
  else if c = '\\' then "\\\\"
  else if c = '\n' then "\\n"
  else if c = '\r' then "\\r"
  else if c = '\t' then "\\t"
  else if c.toNat = 0 then "\\0"
  else if isUnprinted c then "\\u\x7b" ++ hexNumber c.toNat ++ "\x7d"
  else c.toString

def quoted (s : String) : String := "\"" ++ String.join (s.toList.map escapeChar) ++ "\""

end CoapNode
