import ChatWire.Api.Reply
import ChatWire.Json.Printer
import ChatWire.Session.Handshake
import ChatWire.Url.Form

/-! Calls of the interface. Their parameters travel sealed, in the query or as a form. -/

namespace ChatWire

inductive Method
  | get
  | post
  deriving DecidableEq, Repr

/-- A request as it is sent; a form is its body. -/
structure Request where
  method : Method
  url : String
  userAgent : String
  cookie : Option String
  form : Option String
  deriving DecidableEq, Repr

/-- Sends requests for a session. -/
structure Client where
  session : Session
  deriving DecidableEq, Repr

namespace Client

/-- The session must have a user agent that can be sent. -/
def make (s : Session) : Except ApiError Client :=
  if Header.isValue s.userAgent then .ok ⟨s⟩ else .error .client

/-- the parameter in which all parameters are sealed -/
def sealedName : String := "params"

def sealText (c : Client) (params : Json) : Except ApiError String :=
  (SecretText.encode c.session.secretKey params.render).mapError (.cipher .sealParams)

/-- The request of a call at a time in seconds. -/
def request (now : Int) (c : Client) (method : Method) (base : String) (params : Json) :
    Except ApiError Request := do
  let text ← c.sealText params
  let query := match method with
    | .get => [(sealedName, text)]
    | .post => []
  let url ← (c.session.makeUrl base query true).mapError .url
  pure
    { method, url
      userAgent := c.session.userAgent
      cookie := (Url.parse url).toOption.bind (c.session.jar.header? now)
      form := match method with
        | .get => none
        | .post => some (Form.encodePairs [(sealedName, text)]) }

/-- A call: `send` brings the response if there is one. -/
def call {α : Type} (send : Request → Option Response) (now : Int) (c : Client) (r : Json.Reading α)
    (method : Method) (base : String) (params : Json) : Except ApiError α := do
  let request ← c.request now method base params
  match send request with
  | none => throw .http
  | some response => response.resolve r c.session.secretKey

end Client

end ChatWire
