import CoapNode.Handler
/-! A resource with a path and a handler. It accepts requests for its path and, if it is
told to, for every path below. -/
namespace CoapNode

structure Endpoint where
  path : String
  registration : Option RegistrationId
  /-- Paths below are accepted too. -/
  subresources : Bool
  handler : Handler

namespace Endpoint

/-- Registers the path, unless the registration held is still current. -/
def attach (e : Endpoint) (r : Radio) : Endpoint × Radio × Except RuntimeError RegistrationId :=
  match e.registration.filter r.isRegistered with
  | some id => (e, r, .ok id)
  | none =>
    match r.register e.path with
    | (r, .ok id) => ({ e with registration := some id }, r, .ok id)
    | (r, .error err) => (e, r, .error err)

/-- Without a registration there is no endpoint. -/
def create (r : Radio) (path : String) (handler : Handler) :
    Radio × Except RuntimeError Endpoint :=
  match attach ⟨path, none, false, handler⟩ r with
  | (e, r, .ok _) => (r, .ok e)
  | (_, r, .error err) => (r, .error err)

def shutdown (e : Endpoint) (r : Radio) : Endpoint × Radio :=
  match e.registration with
  | none => (e, r)
  | some id =>
    ({ e with registration := none },
      (r.unregister id).1.note .debug ("/" ++ trimSlashes e.path ++ " shut down"))

def accepts (e : Endpoint) (packet : Message) : Bool :=
  packet.isRequest &&
    match packet.uriPath with
    | .error _ => false
    | .ok path =>
      match relatePaths e.path path with
      | .equal => true
      | .rightBelow => e.subresources
      | _ => false

def handle (e : Endpoint) (n : Node) (m : Received) : Node × Received :=
  e.handler.run (n.record (.handled e.path m.peer m.packet.id)) m

def inspect (e : Endpoint) : String :=
  recordText "CoapService" [
    ("path", quoted e.path),
    ("reg", optionText (e.registration.map (·.inspect))),
    ("subresources", boolText e.subresources)]

end Endpoint
end CoapNode
