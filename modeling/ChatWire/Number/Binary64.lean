import ChatWire.Text.Decimal

/-! Finite numbers in the 64-bit binary format, held by their bits and handled in exact integer
arithmetic: reading a decimal rounds to nearest with ties to even, and writing picks the fewest digits
that read back as the same number. -/

namespace ChatWire

structure Binary64 where
  bits : UInt64
  deriving DecidableEq, Repr

namespace Binary64

/-- the sign bit, `2^63` -/
def signBit : Nat := 9223372036854775808

/-- `2^52`, the bit of a significand that is not written -/
def hiddenBit : Nat := 4503599627370496

/-- A finite number is `±m · 2^q`; the sign is `true` for negative. -/
def sign (x : Binary64) : Bool := x.bits.toNat ≥ signBit

def exponentField (x : Binary64) : Nat := x.bits.toNat / hiddenBit % 2048

def fraction (x : Binary64) : Nat := x.bits.toNat % hiddenBit

def significand (x : Binary64) : Nat :=
  if x.exponentField = 0 then x.fraction else hiddenBit + x.fraction

def exponent (x : Binary64) : Int :=
  if x.exponentField = 0 then -1074 else (x.exponentField : Int) - 1075

def isZero (x : Binary64) : Bool := x.significand == 0

def zero (negative : Bool) : Binary64 := ⟨if negative then 0x8000000000000000 else 0⟩

/-- `n / d` to the nearest integer, a half to the even one -/
def roundDiv (n d : Nat) : Nat :=
  let q := n / d
  let r := 2 * (n % d)
  if r < d then q else if d < r then q + 1 else if q % 2 = 0 then q else q + 1

/-- `2^n` over one for `n ≥ 0`, one over `2^-n` otherwise; likewise for other bases. -/
def power (base : Nat) (n : Int) : Nat × Nat :=
  match n with
  | .ofNat k => (base.pow k, 1)
  | .negSucc k => (1, base.pow (k + 1))

/-- the greatest `k` with `2^k ≤ n / d`, for positive `n` and `d` -/
def floorLog2 (n d : Nat) : Int :=
  let k := (Nat.log2 n : Int) - Nat.log2 d
  let (a, b) := power 2 k
  if d * a ≤ n * b then k else k - 1

/-- The number nearest to `n / d`, unless it is too large. -/
def ofRatio (negative : Bool) (n d : Nat) : Option Binary64 :=
  if n = 0 then some (zero negative)
  else
    let q := max (floorLog2 n d - 52) (-1074)
    let (a, b) := power 2 q
    let m := roundDiv (n * b) (d * a)
    let (m, q) := if m = 2 * hiddenBit then (hiddenBit, q + 1) else (m, q)
    if q > 971 then none
    else
      let magnitude := if m < hiddenBit then m else (q + 1074).toNat * hiddenBit + m
      some ⟨UInt64.ofNat ((if negative then signBit else 0) + magnitude)⟩

/-- The number nearest to `digits · 10^e`, unless it is too large. Exponents beyond those of any number
are settled without computing the power. -/
def ofDecimal (negative : Bool) (digits : Nat) (e : Int) : Option Binary64 :=
  let size : Int := Nat.log2 digits / 3
  if digits = 0 then some (zero negative)
  else if e > 400 then none
  else if e + size < -400 then some (zero negative)
  else
    let (a, b) := power 10 e
    ofRatio negative (digits * a) b

/-- The integer part, brought into the range of 64-bit signed integers. -/
def toInt64 (x : Binary64) : Int :=
  let (a, b) := power 2 x.exponent
  let n := x.significand * a / b
  clampInt64 (if x.sign then -(n : Int) else n)

/-- The points of the grid of step `10^e` that lie among the reals which read as `m · 2^q`: of the two
next to it, the nearer, or the even one of two equally near. -/
def gridPoint? (m : Nat) (q e : Int) : Option Nat :=
  let (a, b) := power 2 (q - 2)
  let (p, r) := power 10 e
  let scale := a * r
  let unit := p * b
  let here := 4 * m * scale
  let low := (if m = hiddenBit ∧ q > -1074 then 4 * m - 1 else 4 * m - 2) * scale
  let high := (4 * m + 2) * scale
  let inside (c : Nat) : Bool :=
    if m % 2 = 0 then low ≤ c * unit && c * unit ≤ high else low < c * unit && c * unit < high
  let f := here / unit
  match decide (0 < f) && inside f, inside (f + 1) with
  | true, true =>
    let below := here - f * unit
    let above := (f + 1) * unit - here
    if below < above ∨ (below = above ∧ f % 2 = 0) then some f else some (f + 1)
  | true, false => some f
  | false, true => some (f + 1)
  | false, false => none

def search (m : Nat) (q : Int) : Nat → Int → Nat × Int
  | 0, _ => (m, 0)
  | fuel + 1, e =>
    match gridPoint? m q e with
    | some c => (c, e)
    | none => search m q fuel (e - 1)

/-- The shortest `c · 10^e` that reads back. Seventeen digits always do, so the search from the grid above
the number ends within twenty steps. -/
def shortest (x : Binary64) : Nat × Int :=
  let m := x.significand
  let q := x.exponent
  search m q 24 (((Nat.log2 m : Int) + q) * 30103 / 100000 + 2)

/-- Plain notation, with one decimal at least, from 10⁻⁵ up to but not including 10¹⁶ and for zero;
elsewhere one digit before the point and an exponent that shows its sign. -/
def toChars (x : Binary64) : List Char :=
  let minus := if x.sign then ['-'] else []
  if x.isZero then minus ++ ['0', '.', '0']
  else
    let (c, e) := x.shortest
    let digits := (toString c).toList
    let point : Int := digits.length + e
    if 0 ≤ e ∧ point ≤ 16 then
      minus ++ digits ++ List.replicate e.toNat '0' ++ ['.', '0']
    else if 0 < point ∧ point ≤ 16 then
      minus ++ digits.take point.toNat ++ '.' :: digits.drop point.toNat
    else if -5 < point ∧ point ≤ 0 then
      minus ++ ['0', '.'] ++ List.replicate (-point).toNat '0' ++ digits
    else
      let mark := if point - 1 < 0 then ['e', '-'] else ['e', '+']
      let exponent := mark ++ (toString (point - 1).natAbs).toList
      match digits with
      | d :: [] => minus ++ d :: exponent
      | d :: r => minus ++ d :: '.' :: (r ++ exponent)
      | [] => minus

end Binary64

end ChatWire
