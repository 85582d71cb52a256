import ChatWire.Bytes.Basic
import ChatWire.Cipher.Gcm
import ChatWire.Envelope.Basic
import ChatWire.Gzip.Member
import ChatWire.Text.Percent

/-! Opening an envelope: its payload is unpacked to a JSON text, which is then read. -/

namespace ChatWire

/-- Why an inbound frame says nothing. -/
inductive DecodeError
  | header (length : Nat)
  | envelope (fault : Json.Fault)
  | unsupported (tag : Nat)
  | missingKey
  | invalidKey (fault : Base64.Fault)
  | noKeyInFrame
  | dataNotString
  | notEscapedText
  | base64 (fault : Base64.Fault)
  | tooShort (length : Nat)
  | decrypt (error : CipherError)
  | decompress (fault : Gzip.Fault)
  | notText
  | json (fault : Json.Fault)
  deriving DecidableEq, Repr

/-- The key of a connection, in base64. -/
structure CipherKey where
  text : String
  deriving DecidableEq, Repr

namespace CipherKey

def bytes (k : CipherKey) : Except DecodeError Bytes :=
  (Base64.decode .lenient (Text.trim k.text)).mapError .invalidKey

end CipherKey

namespace Sealed

/-- A sealed payload is a nonce, additional data, and the ciphertext with its tag. -/
def additionalSize : Nat := 16

def minSize : Nat := Gcm.nonceSize + additionalSize + Gcm.tagSize

def openWith (key buffer : Bytes) : Except DecodeError Bytes :=
  if buffer.length < minSize then .error (.tooShort buffer.length)
  else
    let rest := buffer.drop Gcm.nonceSize
    (Gcm.decrypt key (buffer.take Gcm.nonceSize) (rest.take additionalSize)
      (rest.drop additionalSize)).mapError .decrypt

end Sealed

namespace DecodeError

def message : DecodeError → String
  | header n => "frame too short for header: " ++ toString n ++ " bytes"
  | envelope f => "malformed envelope: " ++ f.message
  | unsupported t => "unsupported encryption type " ++ toString t
  | missingKey => "encrypted envelope received without a cipher key"
  | invalidKey f => "cipher key is not valid base64: " ++ f.message
  | noKeyInFrame => "cipher key frame has no key"
  | dataNotString => "envelope data is not a string"
  | notEscapedText => "envelope data is not valid URL-escaped text"
  | base64 f => "envelope data is not valid base64: " ++ f.message
  | tooShort n =>
    "encrypted payload too short: " ++ toString n ++ " bytes (need at least "
      ++ toString Sealed.minSize ++ ")"
  | decrypt e => "decrypt: " ++ e.message
  | decompress f => "decompress: " ++ f.message
  | notText => "payload is not valid UTF-8"
  | json f => "payload JSON: " ++ f.message

end DecodeError

namespace Envelope

variable {α : Type}

/-- A text is read as JSON only when it is not itself what is asked for. -/
def decodePlain (r : Json.Reading α) (data : Json) : Except DecodeError α :=
  match r.ofJson data with
  | .ok a => .ok a
  | .error f =>
    match data with
    | .str text => (r.parseText text).mapError .json
    | _ => .error (.json f)

def fromBase64 (text : String) : Except DecodeError Bytes :=
  (Base64.decode .lenient (Text.trim text)).mapError .base64

/-- The bytes of a sealed payload. -/
def openSealed (compressed : Bool) (key : Bytes) (text : String) : Except DecodeError Bytes := do
  let some plain := Percent.decode? text | throw .notEscapedText
  let opened ← Sealed.openWith key (← fromBase64 plain)
  if compressed then (Gzip.unpack opened).mapError .decompress else pure opened

/-- The key that a packing asks for. -/
def keyFor (e : Encryption) (key : Option CipherKey) : Except DecodeError (Option Bytes) :=
  if e.needsKey then
    match key with
    | none => .error .missingKey
    | some k => some <$> k.bytes
  else .ok none

/-- Reads the payload with the help of the connection's key. A missing or bad key is reported before
anything else is looked at. -/
def decode (r : Json.Reading α) (e : Envelope) (key : Option CipherKey) : Except DecodeError α := do
  let some encryption := Encryption.ofTag? e.tag | throw (.unsupported e.tag)
  if encryption = .plain then
    decodePlain r e.data
  else
    let key ← keyFor encryption key
    let some text := e.data.asString? | throw .dataNotString
    let bytes ←
      match key with
      | none => fromBase64 text
      | some k => openSealed (encryption == .sealedGzip) k text
    let some payload := Text.ofBytes? bytes | throw .notText
    (r.parseText payload).mapError .json

end Envelope

end ChatWire
