/-
# The relay

A question is passed on to the question service, and the envelope that comes back is turned
into a reply.  The service may point to another address; it is followed there, ten times at
the most, by the same request or by one that only asks for what is there.

What the service does is given as a value, together with whoever it points to: how a request
is met, given those that were seen before.  So a relay is a function of the question and of
what the service does; it gives the requests that are seen and the reply.
-/
import RevenueDesk.Chat.Address
import RevenueDesk.Chat.Reply

namespace RevenueDesk.Chat

/-- A request as the one who takes it sees it. -/
structure SeenRequest where
  method : String
  address : Address
  contentType : Option String
  body : String
deriving DecidableEq, Inhabited, Repr

def SeenRequest.line (r : SeenRequest) : String :=
  r.method ++ " " ++ r.address.target ++ " HTTP/1.1"

/-- Where a response points to. -/
inductive Pointer where
  | address (a : Address)
  /-- An address of a scheme that is not spoken. -/
  | foreign
deriving DecidableEq, Inhabited, Repr

/-- A response of the question service. -/
structure ServiceResponse where
  status : Nat
  /-- Where it points to, if that can be read. -/
  pointer : Option Pointer
  /-- The body, unless it breaks off. -/
  body : Option (List UInt8)
deriving Inhabited

/-- How a request is met. -/
inductive Reaction where
  | down
  /-- The request is taken and the connection closed. -/
  | closes
  | responds (response : ServiceResponse)
deriving Inhabited

/-- The question service and whoever it points to: how they meet a request, given those that
they have seen. -/
abbrev Service := List SeenRequest → SeenRequest → Reaction

/-! ## Responses -/

/-- A final status; those below 200 announce a later one. -/
def isFinal (status : Nat) : Bool := 200 ≤ status && status < 1000

/-- A status that reports a failure of the client or the server. -/
def isErrorStatus (status : Nat) : Bool := 400 ≤ status && status < 600

namespace ServiceResponse

variable (response : ServiceResponse)

/-- The body as it is delivered: two statuses never bring one along. -/
def deliveredBody? : Option (List UInt8) :=
  if response.status = 204 ∨ response.status = 304 then some [] else response.body

/-- The envelope that a response brings, if it brings one. -/
def envelope? : Option Envelope :=
  if isFinal response.status && !isErrorStatus response.status then
    response.deliveredBody?.bind Envelope.ofBytes?
  else none

/-- The address that a response sends on to, if it sends on. -/
def sendsTo? : Option Pointer :=
  if [301, 302, 303, 307, 308].contains response.status then response.pointer else none

def next (r : SeenRequest) (a : Address) : SeenRequest :=
  if response.status = 307 ∨ response.status = 308 then { r with address := a }
  else { method := "GET", address := a, contentType := none, body := "" }

end ServiceResponse

/-! ## Questions -/

def questionBody (question : String) : Json := .object [("query", .string question)]

def questionRequest (a : Address) (question : String) : SeenRequest :=
  { method := "POST"
    address := a
    contentType := some "application/json"
    body := (questionBody question).compact }

/-- How often another address is followed. -/
def mostFollowed : Nat := 10

/-- Make a request and follow it to other addresses, `left` times at the most: the requests
that are seen, and the envelope. -/
def follow (service : Service) (left : Nat) (before : List SeenRequest) (r : SeenRequest) :
    List SeenRequest × Option Envelope :=
  match service before r with
  | .down => ([], none)
  | .closes => ([r], none)
  | .responds response =>
    match response.sendsTo?, left with
    | none, _ => ([r], response.envelope?)
    | some .foreign, _ => ([r], none)
    | some (.address _), 0 => ([r], none)
    | some (.address a), left + 1 =>
      let (seen, envelope) := follow service left (before ++ [r]) (response.next r a)
      (r :: seen, envelope)

/-- Ask a question at an address, if there is one: the requests that are seen, and the
envelope. -/
def relay (address : Option Address) (service : Service) (question : String) :
    List SeenRequest × Option Envelope :=
  match address with
  | none => ([], none)
  | some a => follow service mostFollowed [] (questionRequest a question)

/-- The reply to a question, with the requests that are seen. -/
def ask (address : Option Address) (service : Service) (question : String) :
    List SeenRequest × Reply :=
  let (seen, envelope) := relay address service question
  match envelope with
  | some e => (seen, .ofEnvelope question e)
  | none => (seen, .unavailable question)

end RevenueDesk.Chat
