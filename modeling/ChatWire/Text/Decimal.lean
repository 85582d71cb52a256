/-! Integers with a sign: those that 64 bits hold, and their decimal notation. -/

namespace ChatWire

def leastInt64 : Int := -9223372036854775808

def greatestInt64 : Int := 9223372036854775807

def isInt64 (n : Int) : Bool := leastInt64 ≤ n && n ≤ greatestInt64

theorem isInt64_iff {n : Int} : isInt64 n ↔ leastInt64 ≤ n ∧ n ≤ greatestInt64 := by
  rw [isInt64, Bool.and_eq_true, decide_eq_true_eq, decide_eq_true_eq]

/-- the nearest of them -/
def clampInt64 (n : Int) : Int := max leastInt64 (min n greatestInt64)

namespace Decimal

def isDigit (c : Char) : Bool := '0' ≤ c && c ≤ '9'

/-- the number spelled by digits alone, of which there is at least one -/
def natChars? (s : List Char) : Option Nat :=
  if s.isEmpty ∨ !s.all isDigit then none
  else some (s.foldl (fun n c => n * 10 + (c.toNat - 48)) 0)

def intChars? : List Char → Option Int
  | '-' :: r => (natChars? r).map fun n => -(n : Int)
  | '+' :: r => (natChars? r).map fun n => (n : Int)
  | r => (natChars? r).map fun n => (n : Int)

/-- an integer within 64 bits -/
def int64? (s : String) : Option Int :=
  (intChars? s.toList).filter isInt64

end Decimal

end ChatWire
