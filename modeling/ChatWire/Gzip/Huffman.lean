import ChatWire.Bytes.Basic

/-! Bits and canonical codes. The lengths of the codewords determine the code: codewords of one length are
consecutive numbers, in the order of their symbols, and follow on the shorter ones. -/

namespace ChatWire.Gzip

/-! A byte string read as bits, the least significant bit of each byte first. -/

abbrev Bits := List Bool

def Bits.ofBytes (b : Bytes) : Bits :=
  b.flatMap fun x => (List.range 8).map fun i => x.toNat.testBit i

/-- A computation that takes bits off the front of the input. -/
abbrev Read := StateT Bits (Except InputFault)

namespace Read

def corrupt {α : Type} : Read α := throw .corrupt

def bit : Read Bool
  | [] => .error .truncated
  | b :: r => .ok (b, r)

/-- a number of `width` bits -/
def number : Nat → Read Nat
  | 0 => pure 0
  | width + 1 => do
    let low ← bit
    let high ← number width
    pure (low.toNat + 2 * high)

/-- Goes on to the next whole byte. The input as a whole is made of bytes. -/
def align : Read Unit := modify fun bits => bits.drop (bits.length % 8)

end Read

/-! Codes. -/

/-- How many codewords there are of each length from 1 on, and the symbols by length and value. -/
structure Code where
  counts : List Nat
  symbols : Array Nat

namespace Code

def maxLength : Nat := 15

/-- the symbols whose codeword has length `n` -/
def ofLength (lengths : List Nat) (n : Nat) : List Nat :=
  lengths.zipIdx.filterMap fun (m, i) => if m = n then some i else none

def ofLengths (lengths : List Nat) : Code :=
  let groups := (List.range maxLength).map fun n => ofLength lengths (n + 1)
  ⟨groups.map List.length, groups.flatten.toArray⟩

/-- The share of all words of length `maxLength` that starts with a codeword. -/
def filled (c : Code) : Nat :=
  c.counts.zipIdx.foldl (fun s (n, i) => s + n <<< (maxLength - 1 - i)) 0

/-- Every long word starts with exactly one codeword. -/
def complete (c : Code) : Bool := c.filled == 1 <<< maxLength

/-- A code of one codeword or none may be incomplete. -/
def acceptable (c : Code) : Bool := c.complete || c.symbols.size ≤ 1

/-- `offset` is the word read so far, less the first one that no shorter codeword starts; `index` is the
number of shorter codewords. -/
def walk (symbols : Array Nat) : List Nat → Nat → Nat → Read Nat
  | [], _, _ => .corrupt
  | n :: counts, offset, index => do
    let b ← Read.bit
    let offset := 2 * offset + b.toNat
    if offset < n then pure (symbols.getD (index + offset) 0)
    else walk symbols counts (offset - n) (index + n)

def symbol (c : Code) : Read Nat := walk c.symbols c.counts 0 0

end Code

end ChatWire.Gzip
