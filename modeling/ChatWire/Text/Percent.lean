import ChatWire.Bytes.Hex

/-! Percent escapes: `%` and two hexadecimal digits stand for a byte. A `%` that is followed by
anything else stands for itself. -/

namespace ChatWire.Percent

def percent : UInt8 := 37

/-- the value of a hexadecimal digit given as a byte -/
def hexValue? (b : UInt8) : Option Nat := Hex.value? (Char.ofNat b.toNat)

/-- the byte that the three bytes `x`, `h`, `l` are an escape of -/
def escaped? (x h l : UInt8) : Option UInt8 :=
  if x = percent then
    match hexValue? h, hexValue? l with
    | some hi, some lo => some (UInt8.ofNat (16 * hi + lo))
    | _, _ => none
  else none

def decodeBytes : Bytes → Bytes
  | [] => []
  | [x] => [x]
  | [x, y] => [x, y]
  | x :: h :: l :: r =>
    match escaped? x h l with
    | some b => b :: decodeBytes r
    | none => x :: decodeBytes (h :: l :: r)

/-- The decoded text; `none` when the bytes are not UTF-8. -/
def decode? (s : String) : Option String := Text.ofBytes? (decodeBytes (Text.toBytes s))

/-- the escape of a byte, with upper-case digits -/
def escape (b : UInt8) : Bytes :=
  [percent, UInt8.ofNat (Hex.upperDigit (b.toNat / 16)).toNat,
    UInt8.ofNat (Hex.upperDigit (b.toNat % 16)).toNat]

/-- Escapes the bytes that `special` picks. -/
def encodeBytes (special : UInt8 → Bool) (b : Bytes) : Bytes :=
  b.flatMap fun x => if special x then escape x else [x]

/-- Escapes the picked bytes of a text; bytes outside ASCII are always escaped. -/
def encode (special : UInt8 → Bool) (s : String) : String :=
  String.ofList <|
    (encodeBytes (fun x => x ≥ 128 || special x) (Text.toBytes s)).map fun x => Char.ofNat x.toNat

end ChatWire.Percent
