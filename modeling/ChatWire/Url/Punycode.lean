/-! Punycode: labels with characters outside ASCII, written in ASCII. The plain characters come first, the
others as differences in a notation whose digits adapt to what came before. -/

namespace ChatWire.Punycode

def digitChar (d : Nat) : Char :=
  if d < 26 then Char.ofNat (97 + d) else Char.ofNat (22 + d)

def digitValue? (c : Char) : Option Nat :=
  let n := c.toNat
  if 97 ≤ n ∧ n ≤ 122 then some (n - 97)
  else if 65 ≤ n ∧ n ≤ 90 then some (n - 65)
  else if 48 ≤ n ∧ n ≤ 57 then some (n - 22)
  else none

/-- the threshold of the digit of weight `k` -/
def threshold (k bias : Nat) : Nat :=
  if k ≤ bias then 1 else if bias + 26 ≤ k then 26 else k - bias

def shrink (delta k : Nat) : Nat × Nat :=
  if 455 < delta then shrink (delta / 35) (k + 36) else (delta, k)
  termination_by delta

/-- the bias after a difference has been written -/
def adapt (delta count : Nat) (first : Bool) : Nat :=
  let d := if first then delta / 700 else delta / 2
  let (d, k) := shrink (d + d / count) 0
  k + 36 * d / (d + 38)

def digits (bias k q : Nat) : List Char :=
  let t := threshold k bias
  if q < t then [digitChar q]
  else digitChar (t + (q - t) % (36 - t)) :: digits bias (k + 36) ((q - t) / (36 - t))
  termination_by q
  decreasing_by
    have h : 1 ≤ threshold k bias := by unfold threshold; split <;> (try split) <;> omega
    have := Nat.div_le_self (q - threshold k bias) (36 - threshold k bias)
    omega

structure Encoder where
  out : List Char
  delta : Nat
  bias : Nat
  handled : Nat

/-- One character of the label in the round for the characters of value `m`. -/
def Encoder.visit (plain m : Nat) (s : Encoder) (c : Char) : Encoder :=
  if c.toNat < m then { s with delta := s.delta + 1 }
  else if c.toNat = m then
    { out := s.out ++ digits s.bias 36 s.delta
      delta := 0
      bias := adapt s.delta (s.handled + 1) (s.handled == plain)
      handled := s.handled + 1 }
  else s

/-- The rounds for the values that occur, in ascending order; all below `n` have been handled. -/
def rounds (label : List Char) (plain : Nat) : List Nat → Nat → Encoder → Encoder
  | [], _, s => s
  | m :: r, n, s =>
    let s := { s with delta := s.delta + (m - n) * (s.handled + 1) }
    let s := label.foldl (Encoder.visit plain m) s
    rounds label plain r (m + 1) { s with delta := s.delta + 1 }

def encode (label : List Char) : List Char :=
  let plain := label.filter fun c => c.toNat < 128
  let values := ((label.filter fun c => 128 ≤ c.toNat).map Char.toNat).mergeSort
  let values := values.eraseDups
  let start : Encoder := ⟨[], 0, 72, plain.length⟩
  let out := (rounds label plain.length values 128 start).out
  if plain.isEmpty then out else plain ++ '-' :: out

/-- The difference at the front of the text, and the rest. -/
def difference? (bias : Nat) : List Char → Nat → Nat → Nat → Option (Nat × List Char)
  | [], _, _, _ => none
  | c :: r, i, weight, k => do
    let d ← digitValue? c
    let i := i + d * weight
    if i ≥ UInt32.size then none
    else
      let t := threshold k bias
      if d < t then some (i, r) else difference? bias r i (weight * (36 - t)) (k + 36)

/-- Inserts the characters that the differences tell; each takes one character of the text at least. -/
def insertions? : Nat → List Char → Nat → Nat → Nat → List Char → Option (List Char)
  | _, [], _, _, _, out => some out
  | 0, _ :: _, _, _, _, _ => none
  | fuel + 1, s, n, i, bias, out => do
    let (j, r) ← difference? bias s i 1 36
    let count := out.length + 1
    let bias := adapt (j - i) count (i == 0)
    let n := n + j / count
    let i := j % count
    if n ≥ 0x110000 ∨ (0xd800 ≤ n ∧ n ≤ 0xdfff) then none
    else insertions? fuel r n (i + 1) bias (out.take i ++ Char.ofNat n :: out.drop i)

/-- the text before the last hyphen and the text after it -/
def splitLast (s : List Char) : List Char × List Char :=
  let tail := (s.reverse.takeWhile (· != '-')).reverse
  (s.take (s.length - tail.length - 1), tail)

def decode? (s : List Char) : Option (List Char) :=
  let (plain, rest) := splitLast s
  insertions? rest.length rest 128 0 72 plain

end ChatWire.Punycode
