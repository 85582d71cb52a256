import ChatWire.Bytes.Base64

/-! Why a cipher refuses its input. -/

namespace ChatWire

inductive CipherError
  | blockSize (size : Nat)
  | notAligned (length blockSize : Nat)
  | padding
  | keyLength (length : Nat)
  | nonceLength (length : Nat)
  | authentication
  | base64 (fault : Base64.Fault)
  | notText
  deriving DecidableEq, Repr

namespace CipherError

def message : CipherError → String
  | blockSize n => "invalid block size " ++ toString n
  | notAligned n size =>
    "length " ++ toString n ++ " is not a multiple of block size " ++ toString size
  | padding => "malformed PKCS#7 padding"
  | keyLength n => "invalid AES key length " ++ toString n
  | nonceLength n => "invalid GCM IV length " ++ toString n
  | authentication => "AES-GCM authentication failed"
  | base64 f => "invalid base64: " ++ f.message
  | notText => "plaintext is not valid UTF-8"

end CipherError

end ChatWire
