import ChatWire.Bytes.Basic
import ChatWire.Json.Value
import ChatWire.Text.Decimal

/-! The small parts of JSON text: blanks, strings and numbers.

A part that nobody asks for is held to less than one that is read: a string then need not be UTF-8 nor
pair its surrogates, and a number may be too large. -/

namespace ChatWire.Json

/-- What is wrong with a text: it breaks the grammar, it ends too early, or it says something else than
what is asked for. -/
inductive Fault
  | malformed
  | truncated
  | mismatch
  deriving DecidableEq, Repr

def Fault.message : Fault → String
  | malformed => "<json:syntax>"
  | truncated => "<json:eof>"
  | mismatch => "<json:data>"

namespace Lexical

def isBlank (b : UInt8) : Bool := b == 32 || b == 10 || b == 13 || b == 9

def skipBlanks (b : Bytes) : Bytes := b.dropWhile isBlank

def isDigit (b : UInt8) : Bool := 48 ≤ b && b ≤ 57

def hexValue? (b : UInt8) : Option Nat :=
  if 48 ≤ b ∧ b ≤ 57 then some (b.toNat - 48)
  else if 97 ≤ b ∧ b ≤ 102 then some (b.toNat - 87)
  else if 65 ≤ b ∧ b ≤ 70 then some (b.toNat - 55)
  else none

def hexUnit? (a b c d : UInt8) : Option Nat := do
  pure ((((← hexValue? a) * 16 + (← hexValue? b)) * 16 + (← hexValue? c)) * 16 + (← hexValue? d))

/-- the character that a backslash and `b` stand for -/
def escaped? (b : UInt8) : Option UInt8 :=
  if b = 34 ∨ b = 92 ∨ b = 47 then some b
  else if b = 98 then some 8
  else if b = 102 then some 12
  else if b = 110 then some 10
  else if b = 114 then some 13
  else if b = 116 then some 9
  else none

/-- What follows the string whose opening quote has been taken. -/
def skipString : Bytes → Except Fault Bytes
  | [] => .error .truncated
  | 34 :: r => .ok r
  | 92 :: [] => .error .truncated
  | 92 :: 117 :: a :: b :: c :: d :: r =>
    if (hexUnit? a b c d).isSome then skipString r else .error .malformed
  | 92 :: 117 :: _ => .error .truncated
  | 92 :: e :: r => if (escaped? e).isSome then skipString r else .error .malformed
  | b :: r => if b < 32 then .error .malformed else skipString r

/-- The bytes of the string whose opening quote has been taken, after those of `done`, which come last
first. -/
def readString (done : Bytes) : Bytes → Except Fault Bytes
  | [] => .error .truncated
  | 34 :: _ => .ok done.reverse
  | 92 :: [] => .error .truncated
  | 92 :: 117 :: a :: b :: c :: d :: r =>
    match hexUnit? a b c d with
    | none => .error .malformed
    | some n =>
      if 0xdc00 ≤ n ∧ n ≤ 0xdfff then .error .malformed
      else if n < 0xd800 ∨ 0xdbff < n then
        readString ((String.utf8EncodeChar (Char.ofNat n)).reverse ++ done) r
      else
        match r with
        | 92 :: 117 :: e :: f :: g :: h :: s =>
          match hexUnit? e f g h with
          | none => .error .malformed
          | some k =>
            if 0xdc00 ≤ k ∧ k ≤ 0xdfff then
              let c := Char.ofNat ((n - 0xd800) * 1024 + (k - 0xdc00) + 0x10000)
              readString ((String.utf8EncodeChar c).reverse ++ done) s
            else .error .malformed
        | [] | [92] | 92 :: 117 :: _ => .error .truncated
        | _ => .error .malformed
  | 92 :: 117 :: _ => .error .truncated
  | 92 :: e :: r =>
    match escaped? e with
    | some b => readString (b :: done) r
    | none => .error .malformed
  | b :: r => if b < 32 then .error .malformed else readString (b :: done) r

/-- The text of the string whose opening quote has been taken. -/
def stringText (b : Bytes) : Except Fault String := do
  match Text.ofBytes? (← readString [] b) with
  | some s => pure s
  | none => throw .malformed

/-- A number as it is spelled. -/
structure Numeral where
  negative : Bool
  whole : Bytes
  fraction : Bytes
  exponent : Option Int
  deriving Repr

def digitsToNat (b : Bytes) : Nat := b.foldl (fun n d => n * 10 + (d.toNat - 48)) 0

/-- One digit at least, and what follows the digits. -/
def digits (b : Bytes) : Except Fault (Bytes × Bytes) :=
  match b with
  | [] => .error .truncated
  | d :: _ => if isDigit d then .ok (b.takeWhile isDigit, b.dropWhile isDigit) else .error .malformed

/-- No digit follows a leading zero. -/
def wholePart (b : Bytes) : Except Fault (Bytes × Bytes) := do
  let (ds, r) ← digits b
  if ds.head? = some 48 ∧ ds.length > 1 then throw .malformed
  pure (ds, r)

def fractionPart : Bytes → Except Fault (Bytes × Bytes)
  | 46 :: r => digits r
  | r => .ok ([], r)

def exponentPart : Bytes → Except Fault (Option Int × Bytes)
  | e :: r =>
    if e = 101 ∨ e = 69 then do
      let (negative, r) :=
        match r with
        | 45 :: s => (true, s)
        | 43 :: s => (false, s)
        | _ => (false, r)
      let (ds, r) ← digits r
      let n : Int := digitsToNat ds
      pure (some (if negative then -n else n), r)
    else .ok (none, e :: r)
  | [] => .ok (none, [])

/-- The number that `b` starts with, and what follows it. -/
def numeral (b : Bytes) : Except Fault (Numeral × Bytes) := do
  let (negative, r) :=
    match b with
    | 45 :: r => (true, r)
    | _ => (false, b)
  let (whole, r) ← wholePart r
  let (fraction, r) ← fractionPart r
  let (exponent, r) ← exponentPart r
  pure (⟨negative, whole, fraction, exponent⟩, r)

/-- A point or an exponent makes a float, and so do minus zero and what 64 bits cannot hold. -/
def Numeral.number (n : Numeral) : Except Fault Number :=
  let value : Int := if n.negative then -(digitsToNat n.whole : Int) else digitsToNat n.whole
  let fits := if n.negative then leastInt64 ≤ value ∧ value < 0 else value < UInt64.size
  if n.fraction.isEmpty ∧ n.exponent.isNone ∧ fits then .ok (.int value)
  else
    match Binary64.ofDecimal n.negative (digitsToNat (n.whole ++ n.fraction))
        (n.exponent.getD 0 - n.fraction.length) with
    | some x => .ok (.float x)
    | none => .error .malformed

end Lexical

end ChatWire.Json
