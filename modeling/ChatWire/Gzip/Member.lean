import ChatWire.Gzip.Inflate

/-! The gzip format: a header, deflated data, and a CRC-32 check value with the length of the data.

Only the first member of a file is read; what follows it does not matter. -/

/-! The check value. -/

namespace ChatWire.Crc32

def shiftBit (c : UInt32) : UInt32 :=
  if c &&& 1 = 1 then (c >>> 1) ^^^ 0xedb88320 else c >>> 1

/-- the register after one more byte -/
def update (c : UInt32) (b : UInt8) : UInt32 :=
  (List.range 8).foldl (fun x _ => shiftBit x) (c ^^^ b.toUInt32)

def checksum (b : Bytes) : UInt32 := ~~~(b.foldl update 0xffffffff)

end ChatWire.Crc32

namespace ChatWire.Gzip

inductive Fault
  | notGzip
  | inflate (fault : InputFault)
  deriving DecidableEq, Repr

def Fault.message : Fault → String
  | notGzip => "payload is not a gzip stream"
  | inflate f => "gzip decompress failed: " ++ f.message

/-- A gzip file starts with two bytes of its own. -/
def isGzip : Bytes → Bool
  | 0x1f :: 0x8b :: _ => true
  | _ => false

/-- the first `n` bytes and the rest -/
def split (n : Nat) (b : Bytes) : Except InputFault (Bytes × Bytes) :=
  if b.length < n then .error .truncated else .ok (b.take n, b.drop n)

/-- how long a name or a comment in a header may be -/
def maxText : Nat := 65535

/-- What follows a text that a zero byte ends. -/
def skipText (b : Bytes) : Except InputFault Bytes :=
  let text := b.takeWhile (· != 0)
  if text.length > maxText then .error .corrupt
  else
    match b.drop text.length with
    | [] => .error .truncated
    | _ :: r => .ok r

/-- What follows the header that `b` starts with. -/
def skipHeader (b : Bytes) : Except InputFault Bytes := do
  let (start, rest) ← split 10 b
  if start.getD 2 0 ≠ 8 then throw .corrupt
  let flags := (start.getD 3 0).toNat
  if flags ≥ 32 then throw .corrupt
  let rest ←
    if flags.testBit 2 then do
      let (n, rest) ← split 2 rest
      pure (← split (Bytes.toNatLE n) rest).2
    else pure rest
  let rest ← if flags.testBit 3 then skipText rest else pure rest
  let rest ← if flags.testBit 4 then skipText rest else pure rest
  if flags.testBit 1 then
    let header := b.take (b.length - rest.length)
    let (check, rest) ← split 2 rest
    if Bytes.toNatLE check ≠ (Crc32.checksum header).toNat % 65536 then throw .corrupt
    pure rest
  else pure rest

def readMember (b : Bytes) : Except InputFault Bytes := do
  let body ← skipHeader b
  let read : Read Bytes := do
    let out ← inflate
    Read.align
    let check ← Read.number 32
    let size ← Read.number 32
    let data := out.toList
    if check ≠ (Crc32.checksum data).toNat ∨ size ≠ out.size % UInt32.size then Read.corrupt
    pure data
  pure (← read (Bits.ofBytes body)).1

/-- The data of a gzip file. -/
def unpack (b : Bytes) : Except Fault Bytes :=
  if isGzip b then (readMember b).mapError .inflate else .error .notGzip

end ChatWire.Gzip
