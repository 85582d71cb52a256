import ChatWire.Gzip.Huffman

/-! The deflate format: blocks of literal bytes and of references back into the output. -/

namespace ChatWire.Gzip

/-- `length` bytes once more from `distance` back. What lies before the start of the output is zero. -/
def copyBack (distance : Nat) : Nat → Array UInt8 → Array UInt8
  | 0, out => out
  | n + 1, out =>
    let b := if distance ≤ out.size then out.getD (out.size - distance) 0 else 0
    copyBack distance n (out.push b)

/-- the least length of each length symbol from 257 on, and how many bits are added to it -/
def lengthTable : List (Nat × Nat) :=
  [(3, 0), (4, 0), (5, 0), (6, 0), (7, 0), (8, 0), (9, 0), (10, 0), (11, 1), (13, 1), (15, 1), (17, 1),
    (19, 2), (23, 2), (27, 2), (31, 2), (35, 3), (43, 3), (51, 3), (59, 3), (67, 4), (83, 4), (99, 4),
    (115, 4), (131, 5), (163, 5), (195, 5), (227, 5), (258, 0)]

/-- the least distance of each distance symbol, and how many bits are added to it -/
def distanceTable : List (Nat × Nat) :=
  [(1, 0), (2, 0), (3, 0), (4, 0), (5, 1), (7, 1), (9, 2), (13, 2), (17, 3), (25, 3), (33, 4), (49, 4),
    (65, 5), (97, 5), (129, 6), (193, 6), (257, 7), (385, 7), (513, 8), (769, 8), (1025, 9), (1537, 9),
    (2049, 10), (3073, 10), (4097, 11), (6145, 11), (8193, 12), (12289, 12), (16385, 13), (24577, 13)]

/-- the number that entry `i` of a table and the bits behind it spell -/
def extended (table : List (Nat × Nat)) (i : Nat) : Read Nat :=
  match table[i]? with
  | some (least, width) => do
    let more ← Read.number width
    pure (least + more)
  | none => .corrupt

/-- The symbols of a block up to its end. Each takes a bit at least, so that `fuel` is the number of bits. -/
def symbols (literals distances : Code) : Nat → Array UInt8 → Read (Array UInt8)
  | 0, _ => throw .truncated
  | fuel + 1, out => do
    let s ← literals.symbol
    if s < 256 then symbols literals distances fuel (out.push (UInt8.ofNat s))
    else if s = 256 then pure out
    else
      let length ← extended lengthTable (s - 257)
      let d ← distances.symbol
      let distance ← extended distanceTable d
      symbols literals distances fuel (copyBack distance length out)

def fixedLiterals : Code :=
  .ofLengths (List.replicate 144 8 ++ List.replicate 112 9 ++ List.replicate 24 7 ++ List.replicate 8 8)

def fixedDistances : Code := .ofLengths (List.replicate 32 5)

/-- the order in which the lengths of the code for code lengths are given -/
def lengthOrder : List Nat := [16, 17, 18, 0, 8, 7, 9, 6, 10, 5, 11, 4, 12, 3, 13, 2, 14, 1, 15]

/-- Code lengths, last first, until there are `need` or more. Each round adds one at least. -/
def codeLengths (code : Code) (need : Nat) : Nat → List Nat → Read (List Nat)
  | 0, sofar => pure sofar
  | fuel + 1, sofar => do
    if need ≤ sofar.length then return sofar
    let s ← code.symbol
    if s < 16 then codeLengths code need fuel (s :: sofar)
    else if s = 16 then
      let n ← Read.number 2
      match sofar with
      | [] => .corrupt
      | last :: _ => codeLengths code need fuel (List.replicate (n + 3) last ++ sofar)
    else if s = 17 then
      let n ← Read.number 3
      codeLengths code need fuel (List.replicate (n + 3) 0 ++ sofar)
    else
      let n ← Read.number 7
      codeLengths code need fuel (List.replicate (n + 11) 0 ++ sofar)

/-- The two codes that a block brings along. -/
def blockCodes : Read (Code × Code) := do
  let literals := (← Read.number 5) + 257
  let distances := (← Read.number 5) + 1
  let count := (← Read.number 4) + 4
  if literals > 286 ∨ distances > 30 then Read.corrupt
  let given ← (List.range count).mapM fun _ => Read.number 3
  let table := lengthOrder.zip given
  let code := Code.ofLengths ((List.range 19).map fun i => (table.lookup i).getD 0)
  if ¬ code.complete then Read.corrupt
  let lengths ← codeLengths code (literals + distances) (literals + distances) []
  if lengths.length ≠ literals + distances then Read.corrupt
  let lengths := lengths.reverse
  let first := Code.ofLengths (lengths.take literals)
  let second := Code.ofLengths (lengths.drop literals)
  if ¬ (first.acceptable ∧ second.acceptable) then Read.corrupt
  pure (first, second)

def literalBytes : Nat → Array UInt8 → Read (Array UInt8)
  | 0, out => pure out
  | n + 1, out => do
    let b ← Read.number 8
    literalBytes n (out.push (UInt8.ofNat b))

/-- The output so far and one block more, and whether it is the last. -/
def block (out : Array UInt8) : Read (Bool × Array UInt8) := do
  let last ← Read.bit
  let bits := (← get).length
  match ← Read.number 2 with
  | 0 =>
    Read.align
    let n ← Read.number 16
    let check ← Read.number 16
    if n + check ≠ 65535 then Read.corrupt
    pure (last, ← literalBytes n out)
  | 1 => pure (last, ← symbols fixedLiterals fixedDistances bits out)
  | 2 =>
    let (literals, distances) ← blockCodes
    pure (last, ← symbols literals distances bits out)
  | _ => Read.corrupt

def blocks : Nat → Array UInt8 → Read (Array UInt8)
  | 0, _ => throw .truncated
  | fuel + 1, out => do
    let (last, out) ← block out
    if last then pure out else blocks fuel out

/-- The whole output. No block is empty, so there are no more of them than bits. -/
def inflate : Read (Array UInt8) := do
  blocks ((← get).length + 1) #[]

end ChatWire.Gzip
