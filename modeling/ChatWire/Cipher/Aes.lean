import ChatWire.Bytes.Basic

/-! The AES block cipher with keys of 16, 24 and 32 bytes.

A block is four columns of four bytes. Each step of a round has its inverse beside it. -/

namespace ChatWire.Aes

/-- A column of a block, or a word of the key schedule. -/
structure Word where
  b0 : UInt8
  b1 : UInt8
  b2 : UInt8
  b3 : UInt8
  deriving DecidableEq, Repr

structure Block where
  c0 : Word
  c1 : Word
  c2 : Word
  c3 : Word
  deriving DecidableEq, Repr

namespace Word

def zero : Word := ⟨0, 0, 0, 0⟩

def map (f : UInt8 → UInt8) (w : Word) : Word := ⟨f w.b0, f w.b1, f w.b2, f w.b3⟩

def xor (v w : Word) : Word := ⟨v.b0 ^^^ w.b0, v.b1 ^^^ w.b1, v.b2 ^^^ w.b2, v.b3 ^^^ w.b3⟩

def rotate (w : Word) : Word := ⟨w.b1, w.b2, w.b3, w.b0⟩

def toBytes (w : Word) : Bytes := [w.b0, w.b1, w.b2, w.b3]

/-- the first four bytes of `b`, with zeros for those it lacks -/
def ofBytes (b : Bytes) : Word := ⟨b.getD 0 0, b.getD 1 0, b.getD 2 0, b.getD 3 0⟩

theorem xor_xor_cancel (v w : Word) : (v.xor w).xor w = v := by
  simp only [xor, UInt8.xor_assoc, UInt8.xor_self, UInt8.xor_zero]

end Word

namespace Block

def zero : Block := ⟨.zero, .zero, .zero, .zero⟩

def map (f : Word → Word) (b : Block) : Block := ⟨f b.c0, f b.c1, f b.c2, f b.c3⟩

def xor (a b : Block) : Block := ⟨a.c0.xor b.c0, a.c1.xor b.c1, a.c2.xor b.c2, a.c3.xor b.c3⟩

def toBytes (b : Block) : Bytes :=
  b.c0.toBytes ++ b.c1.toBytes ++ b.c2.toBytes ++ b.c3.toBytes

/-- the first sixteen bytes of `b`, with zeros for those it lacks -/
def ofBytes (b : Bytes) : Block :=
  ⟨.ofBytes b, .ofBytes (b.drop 4), .ofBytes (b.drop 8), .ofBytes (b.drop 12)⟩

theorem xor_xor_cancel (a b : Block) : (a.xor b).xor b = a := by simp [xor, Word.xor_xor_cancel]

@[simp] theorem length_toBytes (b : Block) : b.toBytes.length = 16 := rfl

end Block

/-- the bytes of a block in bytes -/
def blockSize : Nat := 16

/-- The blocks of a byte string; the last one is filled up with zeros. -/
def toBlocks (b : Bytes) : List Block :=
  if b.isEmpty then [] else Block.ofBytes b :: toBlocks (b.drop 16)
  termination_by b.length
  decreasing_by
    cases b with
    | nil => simp at *
    | cons x r => simp only [List.length_drop, List.length_cons]; omega

def ofBlocks (bs : List Block) : Bytes := bs.flatMap Block.toBytes

set_option maxRecDepth 4000 in
def substitutionTable : Vector UInt8 256 :=
  #v[
    0x63, 0x7c, 0x77, 0x7b, 0xf2, 0x6b, 0x6f, 0xc5, 0x30, 0x01, 0x67, 0x2b, 0xfe, 0xd7, 0xab, 0x76,
    0xca, 0x82, 0xc9, 0x7d, 0xfa, 0x59, 0x47, 0xf0, 0xad, 0xd4, 0xa2, 0xaf, 0x9c, 0xa4, 0x72, 0xc0,
    0xb7, 0xfd, 0x93, 0x26, 0x36, 0x3f, 0xf7, 0xcc, 0x34, 0xa5, 0xe5, 0xf1, 0x71, 0xd8, 0x31, 0x15,
    0x04, 0xc7, 0x23, 0xc3, 0x18, 0x96, 0x05, 0x9a, 0x07, 0x12, 0x80, 0xe2, 0xeb, 0x27, 0xb2, 0x75,
    0x09, 0x83, 0x2c, 0x1a, 0x1b, 0x6e, 0x5a, 0xa0, 0x52, 0x3b, 0xd6, 0xb3, 0x29, 0xe3, 0x2f, 0x84,
    0x53, 0xd1, 0x00, 0xed, 0x20, 0xfc, 0xb1, 0x5b, 0x6a, 0xcb, 0xbe, 0x39, 0x4a, 0x4c, 0x58, 0xcf,
    0xd0, 0xef, 0xaa, 0xfb, 0x43, 0x4d, 0x33, 0x85, 0x45, 0xf9, 0x02, 0x7f, 0x50, 0x3c, 0x9f, 0xa8,
    0x51, 0xa3, 0x40, 0x8f, 0x92, 0x9d, 0x38, 0xf5, 0xbc, 0xb6, 0xda, 0x21, 0x10, 0xff, 0xf3, 0xd2,
    0xcd, 0x0c, 0x13, 0xec, 0x5f, 0x97, 0x44, 0x17, 0xc4, 0xa7, 0x7e, 0x3d, 0x64, 0x5d, 0x19, 0x73,
    0x60, 0x81, 0x4f, 0xdc, 0x22, 0x2a, 0x90, 0x88, 0x46, 0xee, 0xb8, 0x14, 0xde, 0x5e, 0x0b, 0xdb,
    0xe0, 0x32, 0x3a, 0x0a, 0x49, 0x06, 0x24, 0x5c, 0xc2, 0xd3, 0xac, 0x62, 0x91, 0x95, 0xe4, 0x79,
    0xe7, 0xc8, 0x37, 0x6d, 0x8d, 0xd5, 0x4e, 0xa9, 0x6c, 0x56, 0xf4, 0xea, 0x65, 0x7a, 0xae, 0x08,
    0xba, 0x78, 0x25, 0x2e, 0x1c, 0xa6, 0xb4, 0xc6, 0xe8, 0xdd, 0x74, 0x1f, 0x4b, 0xbd, 0x8b, 0x8a,
    0x70, 0x3e, 0xb5, 0x66, 0x48, 0x03, 0xf6, 0x0e, 0x61, 0x35, 0x57, 0xb9, 0x86, 0xc1, 0x1d, 0x9e,
    0xe1, 0xf8, 0x98, 0x11, 0x69, 0xd9, 0x8e, 0x94, 0x9b, 0x1e, 0x87, 0xe9, 0xce, 0x55, 0x28, 0xdf,
    0x8c, 0xa1, 0x89, 0x0d, 0xbf, 0xe6, 0x42, 0x68, 0x41, 0x99, 0x2d, 0x0f, 0xb0, 0x54, 0xbb, 0x16
  ]

set_option maxRecDepth 4000 in
def inverseSubstitutionTable : Vector UInt8 256 :=
  #v[
    0x52, 0x09, 0x6a, 0xd5, 0x30, 0x36, 0xa5, 0x38, 0xbf, 0x40, 0xa3, 0x9e, 0x81, 0xf3, 0xd7, 0xfb,
    0x7c, 0xe3, 0x39, 0x82, 0x9b, 0x2f, 0xff, 0x87, 0x34, 0x8e, 0x43, 0x44, 0xc4, 0xde, 0xe9, 0xcb,
    0x54, 0x7b, 0x94, 0x32, 0xa6, 0xc2, 0x23, 0x3d, 0xee, 0x4c, 0x95, 0x0b, 0x42, 0xfa, 0xc3, 0x4e,
    0x08, 0x2e, 0xa1, 0x66, 0x28, 0xd9, 0x24, 0xb2, 0x76, 0x5b, 0xa2, 0x49, 0x6d, 0x8b, 0xd1, 0x25,
    0x72, 0xf8, 0xf6, 0x64, 0x86, 0x68, 0x98, 0x16, 0xd4, 0xa4, 0x5c, 0xcc, 0x5d, 0x65, 0xb6, 0x92,
    0x6c, 0x70, 0x48, 0x50, 0xfd, 0xed, 0xb9, 0xda, 0x5e, 0x15, 0x46, 0x57, 0xa7, 0x8d, 0x9d, 0x84,
    0x90, 0xd8, 0xab, 0x00, 0x8c, 0xbc, 0xd3, 0x0a, 0xf7, 0xe4, 0x58, 0x05, 0xb8, 0xb3, 0x45, 0x06,
    0xd0, 0x2c, 0x1e, 0x8f, 0xca, 0x3f, 0x0f, 0x02, 0xc1, 0xaf, 0xbd, 0x03, 0x01, 0x13, 0x8a, 0x6b,
    0x3a, 0x91, 0x11, 0x41, 0x4f, 0x67, 0xdc, 0xea, 0x97, 0xf2, 0xcf, 0xce, 0xf0, 0xb4, 0xe6, 0x73,
    0x96, 0xac, 0x74, 0x22, 0xe7, 0xad, 0x35, 0x85, 0xe2, 0xf9, 0x37, 0xe8, 0x1c, 0x75, 0xdf, 0x6e,
    0x47, 0xf1, 0x1a, 0x71, 0x1d, 0x29, 0xc5, 0x89, 0x6f, 0xb7, 0x62, 0x0e, 0xaa, 0x18, 0xbe, 0x1b,
    0xfc, 0x56, 0x3e, 0x4b, 0xc6, 0xd2, 0x79, 0x20, 0x9a, 0xdb, 0xc0, 0xfe, 0x78, 0xcd, 0x5a, 0xf4,
    0x1f, 0xdd, 0xa8, 0x33, 0x88, 0x07, 0xc7, 0x31, 0xb1, 0x12, 0x10, 0x59, 0x27, 0x80, 0xec, 0x5f,
    0x60, 0x51, 0x7f, 0xa9, 0x19, 0xb5, 0x4a, 0x0d, 0x2d, 0xe5, 0x7a, 0x9f, 0x93, 0xc9, 0x9c, 0xef,
    0xa0, 0xe0, 0x3b, 0x4d, 0xae, 0x2a, 0xf5, 0xb0, 0xc8, 0xeb, 0xbb, 0x3c, 0x83, 0x53, 0x99, 0x61,
    0x17, 0x2b, 0x04, 0x7e, 0xba, 0x77, 0xd6, 0x26, 0xe1, 0x69, 0x14, 0x63, 0x55, 0x21, 0x0c, 0x7d
  ]

def substitute (b : UInt8) : UInt8 := substitutionTable.get ⟨b.toNat, b.toNat_lt⟩

def unsubstitute (b : UInt8) : UInt8 := inverseSubstitutionTable.get ⟨b.toNat, b.toNat_lt⟩

/-- Twice a byte, as polynomials over two elements modulo `x⁸ + x⁴ + x³ + x + 1`. -/
def double (b : UInt8) : UInt8 := if b < 128 then b <<< 1 else (b <<< 1) ^^^ 0x1b

def times3 (b : UInt8) : UInt8 := double b ^^^ b
def times9 (b : UInt8) : UInt8 := double (double (double b)) ^^^ b
def times11 (b : UInt8) : UInt8 := double (double (double b)) ^^^ double b ^^^ b
def times13 (b : UInt8) : UInt8 := double (double (double b)) ^^^ double (double b) ^^^ b
def times14 (b : UInt8) : UInt8 := double (double (double b)) ^^^ double (double b) ^^^ double b

def subBytes (b : Block) : Block := b.map (Word.map substitute)

def unsubBytes (b : Block) : Block := b.map (Word.map unsubstitute)

/-- Row `i` moves `i` columns to the left. -/
def shiftRows (b : Block) : Block :=
  ⟨⟨b.c0.b0, b.c1.b1, b.c2.b2, b.c3.b3⟩, ⟨b.c1.b0, b.c2.b1, b.c3.b2, b.c0.b3⟩,
    ⟨b.c2.b0, b.c3.b1, b.c0.b2, b.c1.b3⟩, ⟨b.c3.b0, b.c0.b1, b.c1.b2, b.c2.b3⟩⟩

def unshiftRows (b : Block) : Block :=
  ⟨⟨b.c0.b0, b.c3.b1, b.c2.b2, b.c1.b3⟩, ⟨b.c1.b0, b.c0.b1, b.c3.b2, b.c2.b3⟩,
    ⟨b.c2.b0, b.c1.b1, b.c0.b2, b.c3.b3⟩, ⟨b.c3.b0, b.c2.b1, b.c1.b2, b.c0.b3⟩⟩

theorem unshiftRows_shiftRows (b : Block) : unshiftRows (shiftRows b) = b := rfl

def mixColumn (w : Word) : Word :=
  ⟨double w.b0 ^^^ times3 w.b1 ^^^ w.b2 ^^^ w.b3, w.b0 ^^^ double w.b1 ^^^ times3 w.b2 ^^^ w.b3,
    w.b0 ^^^ w.b1 ^^^ double w.b2 ^^^ times3 w.b3, times3 w.b0 ^^^ w.b1 ^^^ w.b2 ^^^ double w.b3⟩

def unmixColumn (w : Word) : Word :=
  ⟨times14 w.b0 ^^^ times11 w.b1 ^^^ times13 w.b2 ^^^ times9 w.b3,
    times9 w.b0 ^^^ times14 w.b1 ^^^ times11 w.b2 ^^^ times13 w.b3,
    times13 w.b0 ^^^ times9 w.b1 ^^^ times14 w.b2 ^^^ times11 w.b3,
    times11 w.b0 ^^^ times13 w.b1 ^^^ times9 w.b2 ^^^ times14 w.b3⟩

/-- The round keys: one to start with, one for each full round, one for the last round. -/
structure Schedule where
  start : Block
  rounds : List Block
  last : Block

namespace Schedule

def encrypt (s : Schedule) (b : Block) : Block :=
  let b := s.rounds.foldl (fun b k => ((shiftRows (subBytes b)).map mixColumn).xor k) (b.xor s.start)
  (shiftRows (subBytes b)).xor s.last

def decrypt (s : Schedule) (b : Block) : Block :=
  let b := unsubBytes (unshiftRows (b.xor s.last))
  (s.rounds.foldr (fun k b => unsubBytes (unshiftRows ((b.xor k).map unmixColumn))) b).xor s.start

end Schedule

/-- The constants added to the first byte of every word that starts a new key length. -/
def roundConstant : Nat → UInt8
  | 0 => 1
  | n + 1 => double (roundConstant n)

/-- The next word of a schedule whose words so far, last first, are `ws`; `size` is the key's length in words. -/
def nextWord (size : Nat) (ws : List Word) : Word :=
  let i := ws.length
  let last := ws.headD .zero
  let turned :=
    if i % size = 0 then
      let w := last.rotate.map substitute
      { w with b0 := w.b0 ^^^ roundConstant (i / size - 1) }
    else if size > 6 ∧ i % size = 4 then last.map substitute
    else last
  (ws.getD (size - 1) .zero).xor turned

def extend (size : Nat) : Nat → List Word → List Word
  | 0, ws => ws
  | n + 1, ws => extend size n (nextWord size ws :: ws)

def pack : List Word → List Block
  | a :: b :: c :: d :: r => ⟨a, b, c, d⟩ :: pack r
  | _ => []

def toWords : Bytes → List Word
  | a :: b :: c :: d :: r => ⟨a, b, c, d⟩ :: toWords r
  | _ => []

/-- A key of 16, 24 or 32 bytes. -/
structure Key where
  bytes : Bytes
  legal : bytes.length = 16 ∨ bytes.length = 24 ∨ bytes.length = 32

namespace Key

def ofBytes? (b : Bytes) : Option Key :=
  if h : b.length = 16 ∨ b.length = 24 ∨ b.length = 32 then some ⟨b, h⟩ else none

/-- A key of `n` words is stretched to the words of `n + 7` blocks. -/
def schedule (k : Key) : Schedule :=
  let words := toWords k.bytes
  let size := words.length
  let blocks := pack (extend size (4 * (size + 7) - size) words.reverse).reverse
  ⟨blocks.headD .zero, (blocks.drop 1).dropLast, blocks.getLastD .zero⟩

theorem ofBytes?_bytes (k : Key) : ofBytes? k.bytes = some k := dif_pos k.legal

theorem ofBytes?_eq_none {b : Bytes} (h : ¬ (b.length = 16 ∨ b.length = 24 ∨ b.length = 32)) : ofBytes? b = none :=
  dif_neg h

end Key

end ChatWire.Aes
