/-! Byte strings, the passage between them and text, and the faults in reading them from somewhere. -/

namespace ChatWire

abbrev Bytes := List UInt8

namespace Text

/-- the UTF-8 form of a text -/
def toBytes (s : String) : Bytes := s.toByteArray.data.toList

/-- the text that `b` is the UTF-8 form of, if any -/
def ofBytes? (b : Bytes) : Option String := String.fromUTF8? ⟨b.toArray⟩

theorem ofBytes?_toBytes (s : String) : ofBytes? (toBytes s) = some s := by
  simp [ofBytes?, toBytes, String.fromUTF8?, s.isValidUTF8, String.fromUTF8]

theorem ofBytes?_eq_some_iff {b : Bytes} {s : String} : ofBytes? b = some s ↔ b = toBytes s := by
  constructor
  · intro h
    unfold ofBytes? String.fromUTF8? at h
    split at h
    · obtain rfl := Option.some.inj h
      simp [toBytes, String.fromUTF8]
    · cases h
  · rintro rfl
    exact ofBytes?_toBytes s

end Text

namespace Bytes

/-- The big-endian number that a byte string spells. -/
def toNat (b : Bytes) : Nat := b.foldl (fun n x => n * 256 + x.toNat) 0

/-- The low `width` bytes of `n`, most significant first. -/
def ofNat (width : Nat) (n : Nat) : Bytes :=
  (List.range width).map fun i => UInt8.ofNat (n >>> (8 * (width - 1 - i)))

/-- The low `width` bytes of `n`, least significant first. -/
def ofNatLE (width : Nat) (n : Nat) : Bytes :=
  (List.range width).map fun i => UInt8.ofNat (n >>> (8 * i))

/-- The little-endian number that a byte string spells. -/
def toNatLE (b : Bytes) : Nat := b.foldr (fun x n => x.toNat + 256 * n) 0

@[simp] theorem length_ofNat (width n : Nat) : (ofNat width n).length = width := by simp [ofNat]

@[simp] theorem length_ofNatLE (width n : Nat) : (ofNatLE width n).length = width := by
  simp [ofNatLE]

/-- Bytewise exclusive or, as long as the shorter of the two. -/
def xor (a b : Bytes) : Bytes := List.zipWith (· ^^^ ·) a b

end Bytes

/-! White space, as the Unicode property `White_Space` has it, and trimming. -/

namespace Text

def isBlank (c : Char) : Bool :=
  let n := c.toNat
  (9 ≤ n && n ≤ 13) || n == 0x20 || n == 0x85 || n == 0xa0 || n == 0x1680
    || (0x2000 ≤ n && n ≤ 0x200a) || n == 0x2028 || n == 0x2029 || n == 0x202f || n == 0x205f
    || n == 0x3000

def trimChars (s : List Char) : List Char :=
  ((s.dropWhile isBlank).reverse.dropWhile isBlank).reverse

/-- the text without the white space at its two ends -/
def trim (s : String) : String := String.ofList (trimChars s.toList)

end Text

/-! Faults in reading a byte source: a file, or a compressed stream. -/

inductive InputFault
  | missing
  | notText
  | corrupt
  | truncated
  deriving DecidableEq, Repr

namespace InputFault

/-- the class of system fault that each one belongs to -/
def kind : InputFault → String
  | missing => "NotFound"
  | notText => "InvalidData"
  | corrupt => "InvalidInput"
  | truncated => "UnexpectedEof"

def message (f : InputFault) : String := "<io:" ++ f.kind ++ ">"

end InputFault

end ChatWire
