import ChatWire.Api.Error
import ChatWire.Cipher.Cbc

/-! Replies. A reply brings a sealed text, in which there is another reply, which brings the value. -/

namespace ChatWire

/-- What a server answers with. -/
structure Response where
  status : Nat
  body : Bytes
  deriving DecidableEq, Repr

structure Reply (α : Type) where
  errorCode : Int
  errorMessage : Option String
  data : Option α
  deriving Repr

namespace Reply

variable {α : Type}

open Json.Reading in
/-- In a list the data cannot be left out. -/
def reading (r : Json.Reading α) : Json.Reading (Reply α) :=
  record ⟨0, none, none⟩
    [ field "error_code" int64 fun c e => { e with errorCode := c },
      field "error_message" (optional string) fun m e => { e with errorMessage := m },
      { field "data" (optional r) (fun d e => { e with data := d }) with need := .inList } ]

/-- The data, unless the server reports an error. -/
def content (r : Reply α) : Except ApiError (Option α) :=
  if r.errorCode ≠ 0 then .error (.server r.errorCode (r.errorMessage.getD "")) else .ok r.data

end Reply

/-- The value in a response, which is sealed with the secret key. -/
def Response.resolve {α : Type} (r : Json.Reading α) (secretKey : String) (response : Response) :
    Except ApiError α := do
  if !Status.isSuccess response.status then throw (.status response.status)
  let outer ← ((Reply.reading Json.Reading.string).parse response.body).mapError .decode
  let text := (← outer.content).getD ""
  let opened ← (SecretText.decode secretKey text).mapError (.cipher .openResponse)
  let inner ← ((Reply.reading Json.Reading.value).parseText opened).mapError .decode
  let data := (← inner.content).getD .null
  (r.ofJson data).mapError .decode

end ChatWire
