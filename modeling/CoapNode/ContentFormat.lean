/-! Media types of a payload and their registered numbers. -/
namespace CoapNode

inductive ContentFormat where
  | text
  | linkFormat
  | xml
  | octetStream
  | exi
  | json
  | other (n : UInt16)
  deriving DecidableEq, Repr

namespace ContentFormat

def number : ContentFormat → UInt16
  | text => 0
  | linkFormat => 40
  | xml => 41
  | octetStream => 42
  | exi => 47
  | json => 50
  | other n => n

def ofNumber (n : UInt16) : ContentFormat :=
  if n = 0 then text
  else if n = 40 then linkFormat
  else if n = 41 then xml
  else if n = 42 then octetStream
  else if n = 47 then exi
  else if n = 50 then json
  else other n

def label : ContentFormat → String
  | text => "Text"
  | linkFormat => "LinkFormat"
  | xml => "Xml"
  | octetStream => "OctetStream"
  | exi => "Exi"
  | json => "Json"
  | other n => "Other(" ++ toString n.toNat ++ ")"

end ContentFormat
end CoapNode
