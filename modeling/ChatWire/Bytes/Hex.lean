import ChatWire.Bytes.Basic

/-! Hexadecimal text, two digits a byte. -/

namespace ChatWire.Hex

def digit (n : Nat) : Char := if n < 10 then Char.ofNat (48 + n) else Char.ofNat (87 + n)

def upperDigit (n : Nat) : Char := if n < 10 then Char.ofNat (48 + n) else Char.ofNat (55 + n)

/-- the value of a digit of either case -/
def value? (c : Char) : Option Nat :=
  if '0' ≤ c ∧ c ≤ '9' then some (c.toNat - 48)
  else if 'a' ≤ c ∧ c ≤ 'f' then some (c.toNat - 87)
  else if 'A' ≤ c ∧ c ≤ 'F' then some (c.toNat - 55)
  else none

def encodeChars (b : Bytes) : List Char :=
  b.flatMap fun x => [digit (x.toNat / 16), digit (x.toNat % 16)]

def encode (b : Bytes) : String := String.ofList (encodeChars b)

def encodeUpperChars (b : Bytes) : List Char :=
  b.flatMap fun x => [upperDigit (x.toNat / 16), upperDigit (x.toNat % 16)]

def encodeUpper (b : Bytes) : String := String.ofList (encodeUpperChars b)

def decodeChars? : List Char → Option Bytes
  | [] => some []
  | [_] => none
  | c :: d :: r => do
    let hi ← value? c
    let lo ← value? d
    let rest ← decodeChars? r
    pure (UInt8.ofNat (16 * hi + lo) :: rest)

def decode? (s : String) : Option Bytes := decodeChars? s.toList

theorem length_encodeUpperChars (b : Bytes) : (encodeUpperChars b).length = 2 * b.length := by
  induction b with
  | nil => rfl
  | cons x r ih =>
    have : encodeUpperChars (x :: r) =
      upperDigit (x.toNat / 16) :: upperDigit (x.toNat % 16) :: encodeUpperChars r := rfl
    simp [this, ih]; omega

end ChatWire.Hex
