import ChatWire.Cipher.Aes
import ChatWire.Cipher.Error

/-! AES in Galois/counter mode with a nonce of sixteen bytes and a tag of sixteen bytes behind the
ciphertext. -/

namespace ChatWire.Gcm

open Aes (Block)

def nonceSize : Nat := 16

def tagSize : Nat := 16

/-- The element that a block stands for; its first bit is the constant term. -/
def toElement (b : Block) : BitVec 128 := BitVec.ofNat 128 (Bytes.toNat b.toBytes)

def ofElement (x : BitVec 128) : Block := Block.ofBytes (Bytes.ofNat 16 x.toNat)

/-- Times the indeterminate, modulo `x¹²⁸ + x⁷ + x² + x + 1`. -/
def timesX (v : BitVec 128) : BitVec 128 :=
  if v.getLsbD 0 then (v >>> 1) ^^^ BitVec.ofNat 128 (0xe1 <<< 120) else v >>> 1

/-- The product in the field of 2¹²⁸ elements, one bit of `x` at a time. -/
def mul (x y : BitVec 128) : BitVec 128 :=
  ((List.range 128).foldl
    (fun (z, v) i => (if x.getMsbD i then z ^^^ v else z, timesX v)) (0#128, y)).1

/-- The polynomial hash of a list of blocks at the point `h`. -/
def hash (h : BitVec 128) (bs : List Block) : BitVec 128 :=
  bs.foldl (fun z b => mul (z ^^^ toElement b) h) 0#128

/-- two lengths in bits, in one block -/
def lengths (m n : Nat) : Block := Block.ofBytes (Bytes.ofNat 8 (8 * m) ++ Bytes.ofNat 8 (8 * n))

/-- The counter block of a nonce. -/
def firstCounter (h : BitVec 128) (nonce : Bytes) : Block :=
  ofElement (hash h (Aes.toBlocks nonce ++ [lengths 0 nonce.length]))

/-- The last four bytes count, modulo 2³². -/
def nextCounter (b : Block) : Block :=
  { b with c3 := .ofBytes (Bytes.ofNat 4 ((Bytes.toNat b.c3.toBytes + 1) % 4294967296)) }

/-- The key stream under successive counters, added to the text. -/
def mask (f : Block → Block) (counter : Block) (text : Bytes) : Bytes :=
  if text.isEmpty then []
  else Bytes.xor (text.take 16) (f counter).toBytes ++ mask f (nextCounter counter) (text.drop 16)
  termination_by text.length
  decreasing_by
    cases text with
    | nil => simp at *
    | cons x r => simp only [List.length_drop, List.length_cons]; omega

def tag (f : Block → Block) (h : BitVec 128) (counter : Block) (aad ciphertext : Bytes) : Bytes :=
  let digest := hash h
    (Aes.toBlocks aad ++ Aes.toBlocks ciphertext ++ [lengths aad.length ciphertext.length])
  ((ofElement digest).xor (f counter)).toBytes

/-- The cipher of a key, the hash point, and the counter block of a nonce. -/
def prepare (k : Aes.Key) (nonce : Bytes) : (Block → Block) × BitVec 128 × Block :=
  let f := k.schedule.encrypt
  let h := toElement (f .zero)
  (f, h, firstCounter h nonce)

/-- The ciphertext and, behind it, the tag. -/
def sealWith (k : Aes.Key) (nonce aad plaintext : Bytes) : Bytes :=
  let (f, h, counter) := prepare k nonce
  let ciphertext := mask f (nextCounter counter) plaintext
  ciphertext ++ tag f h counter aad ciphertext

/-- The plaintext of a sealed text whose tag is right. -/
def openWith? (k : Aes.Key) (nonce aad sealed : Bytes) : Option Bytes :=
  if sealed.length < tagSize then none
  else
    let (f, h, counter) := prepare k nonce
    let ciphertext := sealed.take (sealed.length - tagSize)
    if tag f h counter aad ciphertext = sealed.drop (sealed.length - tagSize) then
      some (mask f (nextCounter counter) ciphertext)
    else none

/-- The nonce's length is looked at before the key's. -/
def decrypt (k nonce aad sealed : Bytes) : Except CipherError Bytes :=
  if nonce.length ≠ nonceSize then .error (.nonceLength nonce.length)
  else
    match Aes.Key.ofBytes? k with
    | none => .error (.keyLength k.length)
    | some k =>
      match openWith? k nonce aad sealed with
      | some p => .ok p
      | none => .error .authentication

end ChatWire.Gcm
