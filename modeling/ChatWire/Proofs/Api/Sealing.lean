import ChatWire.Api.Client
import ChatWire.Proofs.Api.Reply
import ChatWire.Proofs.Cipher.SecretText
import ChatWire.Proofs.Session.MakeUrl

/-! Calls on their way. What a request brings is found in its text and opens to the parameters, and what a reply brings
under two seals is the value, or the error, that the server means. -/

namespace ChatWire

variable {α : Type} {k : Aes.Key}

namespace Method

/-- what a call of each method puts into the query -/
def query (sealed : String) : Method → List (String × String)
  | get => [(Client.sealedName, sealed)]
  | post => []

/-- what it puts into a form -/
def form (sealed : String) : Method → Option (List (String × String))
  | get => none
  | post => some [(Client.sealedName, sealed)]

end Method

namespace Request

/-- the pairs that stand in the text of the URL -/
def pairs (r : Request) : List (String × String) := Form.decodePairs (Url.queryText r.url)

end Request

namespace Client

end Client

namespace Response

variable {r : Json.Reading α} {response : Response} {secret inner escaped message why : String} {code : Int} {v : Json}

end Response

end ChatWire
