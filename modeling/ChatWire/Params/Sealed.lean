import ChatWire.Json.Printer
import ChatWire.Params.Key
import ChatWire.Params.Token

/-! Requests whose body is sealed under a key that only the device token and the extension determine. -/

namespace ChatWire

/-- A device token, an extension, and the key derived from both. -/
structure Sealer where
  token : String
  extension : String
  key : String
  deriving DecidableEq, Repr

namespace Sealer

def make (device : Device) (extension : String) : Except ParamsError Sealer := do
  let token ← device.token
  let key ← RequestKey.derive extension token
  pure ⟨token, extension, key⟩

/-- the parameters that let a receiver derive the key, by name -/
def params (s : Sealer) : List (String × String) :=
  [("enc_ver", "v2"), ("zcid", s.token), ("zcid_ext", s.extension)]

def sealBody (s : Sealer) (body : Json) : Except ParamsError String :=
  (Cbc.encryptText (Text.toBytes s.key) (Text.toBytes body.render) .base64).mapError
    (.cipher .body)

end Sealer

/-- All parameters of a request by name, and the key that its body is sealed under. -/
structure SealedRequest where
  params : List (String × String)
  key : String
  deriving DecidableEq, Repr

namespace SealedRequest

/-- Everything but the signature is signed. -/
def make (device : Device) (apiVersion : Nat) (extension : String) (body : Json) (call : String) :
    Except ParamsError SealedRequest := do
  let sealer ← Sealer.make device extension
  let sealed ← sealer.sealBody body
  let version := ("client_version", toString apiVersion)
  let kind := ("type", toString device.apiType)
  let signature := Signature.sign call
    [version, ("enc_ver", "v2"), ("params", sealed), kind, ("zcid", sealer.token),
      ("zcid_ext", sealer.extension)]
  pure
    { params :=
        [version, ("enc_ver", "v2"), ("params", sealed), ("signkey", signature), kind,
          ("zcid", sealer.token), ("zcid_ext", sealer.extension)]
      key := sealer.key }

end SealedRequest

end ChatWire
