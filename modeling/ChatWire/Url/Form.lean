import ChatWire.Text.Lossy
import ChatWire.Text.Percent

/-! Lists of pairs in the notation of forms and queries: `a=1&b=2`, with `+` for a blank. -/

namespace ChatWire.Form

/-- what stands for itself in a written pair -/
def isPlain (b : UInt8) : Bool :=
  (48 ≤ b && b ≤ 57) || (65 ≤ b && b ≤ 90) || (97 ≤ b && b ≤ 122) || b == 42 || b == 45 || b == 46
    || b == 95

def encodeByte (b : UInt8) : Bytes :=
  if isPlain b then [b] else if b = 32 then [43] else Percent.escape b

def encodeBytes (b : Bytes) : Bytes := b.flatMap encodeByte

def ascii (b : Bytes) : String := String.ofList (b.map fun x => Char.ofNat x.toNat)

def encode (s : String) : String := ascii (encodeBytes (Text.toBytes s))

def encodePair (p : String × String) : String := encode p.1 ++ "=" ++ encode p.2

/-- the written form of a list of pairs -/
def encodePairs (pairs : List (String × String)) : String :=
  String.intercalate "&" (pairs.map encodePair)

def decodeBytes (b : Bytes) : Bytes :=
  Percent.decodeBytes (b.map fun x => if x = 43 then 32 else x)

/-- Bytes that are no text are replaced. -/
def decode (b : Bytes) : String := Text.lossy (decodeBytes b)

/-- the parts of a byte string between separators -/
def splitBytes (separator : UInt8) : Bytes → List Bytes
  | [] => [[]]
  | b :: r =>
    if b = separator then [] :: splitBytes separator r
    else
      match splitBytes separator r with
      | [] => [[b]]
      | p :: ps => (b :: p) :: ps

/-- Without a sign of equality the whole is a name. -/
def decodePair (b : Bytes) : String × String :=
  let name := b.takeWhile (· != 61)
  (decode name, decode (b.drop (name.length + 1)))

/-- The pairs of a text; nothing between two separators is no pair. -/
def decodePairs (s : String) : List (String × String) :=
  ((splitBytes 38 (Text.toBytes s)).filter fun p => !p.isEmpty).map decodePair

end ChatWire.Form
