import ChatWire.Cipher.Error
import ChatWire.Http.Basic
import ChatWire.Json.Reading
import ChatWire.Session.Basic

/-! Why a call of the interface gives no value. -/

namespace ChatWire

/-- what was being done with a sealed text -/
inductive SealOperation
  | sealParams
  | openResponse
  deriving DecidableEq, Repr

def SealOperation.name : SealOperation → String
  | sealParams => "seal params"
  | openResponse => "open response"

inductive ApiError
  | client
  | url (error : SessionError)
  | cipher (op : SealOperation) (error : CipherError)
  | http
  | status (code : Nat)
  | server (code : Int) (message : String)
  | decode (fault : Json.Fault)
  deriving DecidableEq, Repr

def ApiError.message : ApiError → String
  | client => "build http client: <http>"
  | url e => "build url: " ++ e.message
  | cipher op e => op.name ++ ": " ++ e.message
  | http => "http request: <http>"
  | status code => "http status " ++ Status.text code
  | server code message => "server error " ++ toString code ++ ": " ++ message
  | decode f => "decode response: " ++ f.message

end ChatWire
