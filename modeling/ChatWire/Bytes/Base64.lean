import ChatWire.Bytes.Basic

/-! Base64 text with the standard alphabet. A decoder comes in two strengths, which differ only in
whether missing padding is accepted; bits that the last symbol carries in vain must be zero in both.

Faults name the place where the text goes wrong, counted in bytes. -/

namespace ChatWire.Base64

inductive Fault
  | symbol (byte : UInt8) (offset : Nat)
  | length (symbols : Nat)
  | lastSymbol (byte : UInt8) (offset : Nat)
  | padding
  deriving DecidableEq, Repr

def Fault.message : Fault → String
  | symbol b o => "Invalid symbol " ++ toString b.toNat ++ ", offset " ++ toString o ++ "."
  | length n => "Invalid input length: " ++ toString n
  | lastSymbol b o => "Invalid last symbol " ++ toString b.toNat ++ ", offset " ++ toString o ++ "."
  | padding => "Invalid padding"

/-- whether a text must be filled up to a multiple of four symbols -/
inductive Strength
  | strict
  | lenient
  deriving DecidableEq, Repr

/-- the filler `=` -/
def pad : UInt8 := 61

/-- the symbol for a number below 64 -/
def symbol (n : Nat) : UInt8 :=
  if n < 26 then UInt8.ofNat (65 + n)
  else if n < 52 then UInt8.ofNat (71 + n)
  else if n < 62 then UInt8.ofNat (n - 4)
  else if n = 62 then 43
  else 47

def value? (b : UInt8) : Option Nat :=
  let n := b.toNat
  if 65 ≤ n ∧ n ≤ 90 then some (n - 65)
  else if 97 ≤ n ∧ n ≤ 122 then some (n - 71)
  else if 48 ≤ n ∧ n ≤ 57 then some (n + 4)
  else if n = 43 then some 62
  else if n = 47 then some 63
  else none

def encodeBytes : Bytes → Bytes
  | [] => []
  | [a] =>
    let n := a.toNat * 16
    [symbol (n / 64), symbol (n % 64), pad, pad]
  | [a, b] =>
    let n := (a.toNat * 256 + b.toNat) * 4
    [symbol (n / 4096), symbol (n / 64 % 64), symbol (n % 64), pad]
  | a :: b :: c :: r =>
    let n := (a.toNat * 256 + b.toNat) * 256 + c.toNat
    symbol (n / 262144) :: symbol (n / 4096 % 64) :: symbol (n / 64 % 64) :: symbol (n % 64)
      :: encodeBytes r

def encode (b : Bytes) : String :=
  String.ofList ((encodeBytes b).map fun x => Char.ofNat x.toNat)

/-- the value of the symbol `b` found at `offset` -/
def read (b : UInt8) (offset : Nat) : Except Fault Nat :=
  match value? b with
  | some v => .ok v
  | none => .error (.symbol b offset)

/-- the values of a run of symbols that starts at `offset` -/
def readAll : Bytes → Nat → Except Fault (List Nat)
  | [], _ => .ok []
  | b :: r, offset => do
    let v ← read b offset
    let vs ← readAll r (offset + 1)
    pure (v :: vs)

/-- the bytes that the two, three or four values of a last group spell, and the bits left over -/
def lastGroup : List Nat → Bytes × Nat
  | [a, b] => ([UInt8.ofNat (a * 4 + b / 16)], b % 16)
  | [a, b, c] => ([UInt8.ofNat (a * 4 + b / 16), UInt8.ofNat (b % 16 * 16 + c / 4)], c % 4)
  | [a, b, c, d] =>
    ([UInt8.ofNat (a * 4 + b / 16), UInt8.ofNat (b % 16 * 16 + c / 4), UInt8.ofNat (c % 4 * 64 + d)], 0)
  | _ => ([], 0)

/-- The last group of a text, at most four bytes that start at `offset`: symbols, then filler. -/
def decodeLast (strength : Strength) (tail : Bytes) (offset : Nat) : Except Fault Bytes := do
  let symbols := tail.takeWhile (· != pad)
  let filler := tail.dropWhile (· != pad)
  let values ← readAll symbols offset
  let stop := offset + symbols.length
  if ¬ filler.isEmpty ∧ (symbols.length < 2 ∨ filler.any (· != pad)) then
    throw (.symbol pad stop)
  if ¬ tail.isEmpty ∧ symbols.length < 2 then
    throw (.length stop)
  if strength = .strict ∧ tail.length % 4 ≠ 0 then
    throw .padding
  let (bytes, spare) := lastGroup values
  if spare ≠ 0 then
    throw (.lastSymbol (symbols.getLastD 0) (stop - 1))
  pure bytes

/-- Every group but the last has four symbols. -/
def decodeGroups (strength : Strength) : Bytes → Nat → Except Fault Bytes
  | a :: b :: c :: d :: e :: r, offset => do
    let v ← read a offset
    let w ← read b (offset + 1)
    let x ← read c (offset + 2)
    let y ← read d (offset + 3)
    let rest ← decodeGroups strength (e :: r) (offset + 4)
    pure ((lastGroup [v, w, x, y]).1 ++ rest)
  | tail, offset => decodeLast strength tail offset

/-- A stray byte after whole groups is reported before anything else. -/
def decodeBytes (strength : Strength) (text : Bytes) : Except Fault Bytes :=
  let last := text.getLastD pad
  if text.length % 4 = 1 ∧ last ≠ pad ∧ (value? last).isNone then
    .error (.symbol last (text.length - 1))
  else
    decodeGroups strength text 0

def decode (strength : Strength) (text : String) : Except Fault Bytes :=
  decodeBytes strength (Text.toBytes text)

end ChatWire.Base64
