import ChatWire.Bytes.Hex
import ChatWire.Cipher.Aes
import ChatWire.Cipher.Error
import ChatWire.Text.Percent

/-! AES in cipher block chaining mode, started from the zero block and with PKCS#7 padding; and the texts that are
sealed so under a session's secret key.

Nothing varies between two seals of one text under one key: equal texts give equal ciphertexts. -/

/-! PKCS#7 padding: `n` bytes of value `n`, at least one, up to the next multiple of the block size. -/

namespace ChatWire.Padding

/-- The number of filler bytes fits in a byte, and so do the block sizes. -/
def legalSize (size : Nat) : Bool := 0 < size && size ≤ 255

def add (size : Nat) (b : Bytes) : Except CipherError Bytes :=
  if legalSize size then
    let n := size - b.length % size
    .ok (b ++ List.replicate n (UInt8.ofNat n))
  else .error (.blockSize size)

def strip (size : Nat) (b : Bytes) : Except CipherError Bytes :=
  if ¬ legalSize size then .error (.blockSize size)
  else if b.isEmpty ∨ b.length % size ≠ 0 then .error (.notAligned b.length size)
  else
    let n := (b.getLastD 0).toNat
    let keep := b.length - n
    if n = 0 ∨ size < n ∨ (b.drop keep).any (fun x => x.toNat != n) then .error .padding
    else .ok (b.take keep)

end ChatWire.Padding

/-! Chaining. -/

namespace ChatWire.Cbc

open Aes (Block)

/-- Each block is masked with the ciphertext before it, `prev` to begin with. -/
def chain (f : Block → Block) (prev : Block) : List Block → List Block
  | [] => []
  | b :: r => let c := f (b.xor prev); c :: chain f c r

def unchain (g : Block → Block) (prev : Block) : List Block → List Block
  | [] => []
  | c :: r => (g c).xor prev :: unchain g c r

theorem unchain_chain {f g : Block → Block} (h : ∀ b, g (f b) = b) (prev : Block) (bs : List Block) :
    unchain g prev (chain f prev bs) = bs := by
  induction bs generalizing prev with
  | nil => rfl
  | cons b r ih => simp [chain, unchain, h, ih, Block.xor_xor_cancel]

def key (b : Bytes) : Except CipherError Aes.Key :=
  match Aes.Key.ofBytes? b with
  | some k => .ok k
  | none => .error (.keyLength b.length)

def encrypt (k plaintext : Bytes) : Except CipherError Bytes := do
  let padded ← Padding.add Aes.blockSize plaintext
  let k ← key k
  pure (Aes.ofBlocks (chain k.schedule.encrypt .zero (Aes.toBlocks padded)))

/-- The ciphertext's length is looked at before the key's. -/
def decrypt (k ciphertext : Bytes) : Except CipherError Bytes := do
  if ciphertext.isEmpty ∨ ciphertext.length % Aes.blockSize ≠ 0 then
    throw (.notAligned ciphertext.length Aes.blockSize)
  let k ← key k
  Padding.strip Aes.blockSize
    (Aes.ofBlocks (unchain k.schedule.decrypt .zero (Aes.toBlocks ciphertext)))

/-- how a ciphertext is written down -/
inductive Encoding
  | hex
  | base64
  deriving DecidableEq, Repr

def Encoding.write : Encoding → Bytes → String
  | hex => Hex.encode
  | base64 => Base64.encode

def encryptText (k plaintext : Bytes) (form : Encoding) : Except CipherError String :=
  (encrypt k plaintext).map form.write

/-- strict base64, with white space around it allowed -/
def readBase64 (text : String) : Except CipherError Bytes :=
  (Base64.decode .strict (Text.trim text)).mapError .base64

def decryptText (k : Bytes) (text : String) : Except CipherError Bytes := do
  decrypt k (← readBase64 text)

end ChatWire.Cbc

/-! Texts sealed under a session's secret key, which is itself given in base64. -/

namespace ChatWire.SecretText

def encode (secret plaintext : String) : Except CipherError String := do
  let k ← Cbc.readBase64 secret
  Cbc.encryptText k (Text.toBytes plaintext) .base64

/-- The sealed text may be percent-escaped. -/
def decode (secret sealed : String) : Except CipherError String := do
  let k ← Cbc.readBase64 secret
  let some plain := Percent.decode? sealed | throw .notText
  let bytes ← Cbc.decryptText k plain
  let some text := Text.ofBytes? bytes | throw .notText
  pure text

end ChatWire.SecretText
