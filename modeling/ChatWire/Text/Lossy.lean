import ChatWire.Bytes.Basic

/-! Text from bytes that may not be UTF-8: each longest run of bytes that starts a character but does not
finish it becomes one replacement character. -/

namespace ChatWire.Text

def replacement : Char := Char.ofNat 0xfffd

/-- a byte that continues a character -/
def isTail (b : UInt8) : Bool := 0x80 ≤ b && b ≤ 0xbf

/-- the range of the second byte of a character that starts with `b` -/
def secondRange (b : UInt8) : UInt8 × UInt8 :=
  if b = 0xe0 then (0xa0, 0xbf)
  else if b = 0xed then (0x80, 0x9f)
  else if b = 0xf0 then (0x90, 0xbf)
  else if b = 0xf4 then (0x80, 0x8f)
  else (0x80, 0xbf)

/-- how many bytes follow one that starts a character -/
def tailLength (b : UInt8) : Option Nat :=
  if b < 0x80 then some 0
  else if 0xc2 ≤ b ∧ b ≤ 0xdf then some 1
  else if 0xe0 ≤ b ∧ b ≤ 0xef then some 2
  else if 0xf0 ≤ b ∧ b ≤ 0xf4 then some 3
  else none

def isSecond (a b : UInt8) : Bool :=
  let (low, high) := secondRange a
  low ≤ b && b ≤ high

/-- the character that some bytes are the UTF-8 form of -/
def character (b : Bytes) : Char :=
  match ofBytes? b with
  | some s => s.toList.headD replacement
  | none => replacement

def lossyChars : Bytes → List Char
  | [] => []
  | [a] => [if a < 0x80 then Char.ofNat a.toNat else replacement]
  | a :: b :: r =>
    match tailLength a with
    | none => replacement :: lossyChars (b :: r)
    | some 0 => Char.ofNat a.toNat :: lossyChars (b :: r)
    | some 1 =>
      if isSecond a b then character [a, b] :: lossyChars r
      else replacement :: lossyChars (b :: r)
    | some 2 =>
      if isSecond a b then
        match r with
        | [] => [replacement]
        | c :: s =>
          if isTail c then character [a, b, c] :: lossyChars s
          else replacement :: lossyChars (c :: s)
      else replacement :: lossyChars (b :: r)
    | some _ =>
      if isSecond a b then
        match r with
        | [] => [replacement]
        | [c] => if isTail c then [replacement] else replacement :: lossyChars [c]
        | c :: d :: s =>
          if isTail c then
            if isTail d then character [a, b, c, d] :: lossyChars s
            else replacement :: lossyChars (d :: s)
          else replacement :: lossyChars (c :: d :: s)
      else replacement :: lossyChars (b :: r)

def lossy (b : Bytes) : String := String.ofList (lossyChars b)

end ChatWire.Text
