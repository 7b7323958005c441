import ProxyUpgrade.Action
import ProxyUpgrade.Json.Plain
import ProxyUpgrade.Url.Basic
/-!
# Exchanges over the web

A request goes to an address and carries nothing, a JSON document or a form; what comes back, if
anything does, is a reply with a status and a text, which may have been cut short. Everything that
can go wrong on the way is a `Http.Fault`. Whether another attempt may help depends on the fault: it
may where no reply came at all, or the server says that it is busy or broken.
-/

namespace ProxyUpgrade

namespace Http

/-- What a request carries. -/
inductive Body where
  /-- Nothing: the request only asks. -/
  | empty
  | json (document : Json)
  | form (pairs : List (String × String))

/-- A request. -/
structure Request where
  url : Url
  body : Body

/-- A reply. -/
structure Reply where
  status : Nat
  /-- The words that go with the status. -/
  reason : String
  text : String
  /-- Whether all of the text has arrived. -/
  complete : Bool

/-- Why there is no usable reply. -/
inductive Fault where
  /-- The address is none that requests can be sent to. -/
  | unsupported (url : Url)
  /-- No reply came. -/
  | noReply (url : Url)
  /-- The status of the reply stands for a failure. -/
  | refused (status : Nat) (reason : String) (url : Url)
  /-- The reply is not a document, or not one of the expected form. -/
  | undecodable

namespace Fault

/-- The text of a failure. -/
def message : Fault → String
  | unsupported url => "builder error for url (" ++ url.anonymous.text ++ ")"
  | noReply url => "error sending request for url (" ++ url.anonymous.text ++ ")"
  | refused status reason url =>
    let who := if status < 500 then "client" else "server"
    "HTTP status " ++ who ++ " error (" ++ toString status ++ " " ++ reason ++ ") for url (" ++
      url.anonymous.text ++ ")"
  | undecodable => "error decoding response body"

/-- Whether another attempt may help. -/
def isTransient : Fault → Bool
  | noReply _ => true
  | refused status _ _ => 500 ≤ status || status == 429
  | _ => false

/-- The failure of a call: one of the network if it is transient, else one of the service that was
asked. -/
def toError (service : String → Error) (fault : Fault) : Error :=
  if fault.isTransient then .network fault.message else service fault.message

end Fault

/-- The document that a reply holds. -/
def Reply.json? (reply : Reply) : Option Json :=
  if reply.complete then Json.parse? reply.text else none

/-- The plain value that a reply holds. -/
def Reply.plain? (reply : Reply) : Option Json :=
  if reply.complete then Json.parsePlain? reply.text else none

end Http

/-- Access to the web. -/
structure Http (m : Type → Type) where
  /-- Sends a request, and waits for the reply; there is none if the server cannot be reached or
  does not answer. -/
  exchange : Http.Request → m (Option Http.Reply)

namespace Http

variable {m : Type → Type} [Monad m]

/-- A network over which nothing can be reached. -/
def unreachable : Http m := ⟨fun _ => pure none⟩

/-- The schemes of addresses that requests can be sent to. -/
def schemes : List (List Char) := ["http".toList, "https".toList]

/-- Sends a request. -/
def send (http : Http m) (request : Request) : m (Except Fault Reply) :=
  if schemes.contains request.url.scheme then do
    match ← http.exchange request with
    | some reply => pure (.ok reply)
    | none => pure (.error (.noReply request.url))
  else pure (.error (.unsupported request.url))

/-- Whether a status stands for a failure. -/
def isFailure (status : Nat) : Bool := 400 ≤ status && status < 600

/-- Sends a request, and takes a reply whose status stands for a failure as one. -/
def sendChecked (http : Http m) (request : Request) : m (Except Fault Reply) := do
  match ← http.send request with
  | .ok reply =>
    if isFailure reply.status then
      pure (.error (.refused reply.status reply.reason request.url))
    else pure (.ok reply)
  | .error fault => pure (.error fault)

end Http

end ProxyUpgrade
