import ChatWire.Bytes.Basic
import ChatWire.Url.Folding
import ChatWire.Url.Punycode

/-! Domain names in the form in which they are looked up: lower case, and ASCII throughout. -/

namespace ChatWire.Domain

/-- characters that no domain name may hold -/
def isDenied (c : Char) : Bool :=
  c.toNat ≤ 32 || c.toNat == 127 ||
    ['#', '%', '/', ':', '<', '>', '?', '@', '[', '\\', ']', '^', '|'].contains c

/-- characters that are passed over: soft hyphens, joiners and the like -/
def isIgnored (c : Char) : Bool :=
  let n := c.toNat
  n == 0xad || n == 0x34f || n == 0x200b || n == 0x2060 || n == 0xfeff || (0xfe00 ≤ n && n ≤ 0xfe0f)

/-- Characters that no label may hold: controls, blanks, private use, and what stands for no character. -/
def excluded : List (Nat × Nat) :=
  [(0x80, 0xa0), (0xa8, 0xa8), (0xaf, 0xaf), (0xb4, 0xb4), (0xb8, 0xb8), (0x2d8, 0x2dd), (0x378, 0x37a),
    (0x380, 0x385), (0x38b, 0x38b), (0x38d, 0x38d), (0x3a2, 0x3a2), (0x530, 0x530), (0x557, 0x558),
    (0x58b, 0x58c), (0x1680, 0x1680), (0x2000, 0x200f), (0x2028, 0x202e), (0xe000, 0xf8ff), (0xfff0, 0xffff),
    (0xe0000, 0x10ffff)]

def isExcluded (c : Char) : Bool := excluded.any fun (first, last) => first ≤ c.toNat && c.toNat ≤ last

/-- marks that stand on the letter before them -/
def isMark (c : Char) : Bool := 0x300 ≤ c.toNat && c.toNat ≤ 0x36f

/-- Whether a label may be encoded. -/
def isEncodable (label : List Char) : Bool := !label.any isExcluded && !(label.head?.any isMark)

def isAscii (s : List Char) : Bool := s.all fun c => c.toNat < 128

/-- A label that claims to be encoded has to decode to something that needs it. -/
def encodedLabel? (label : List Char) : Option (List Char) :=
  match label with
  | 'x' :: 'n' :: '-' :: '-' :: r =>
    match Punycode.decode? r with
    | some s =>
      if isAscii s ∨ !isEncodable s ∨ s.any (fun c => Folding.fold c != [c]) then none else some label
    | none => none
  | _ => some label

def label? (label : List Char) : Option (List Char) :=
  if isAscii label then encodedLabel? label
  else if !isEncodable label then none
  else some ("xn--".toList ++ Punycode.encode label)

/-- The labels of a name. -/
def labels : List Char → List (List Char)
  | [] => [[]]
  | c :: r =>
    if c = '.' then [] :: labels r
    else
      match labels r with
      | [] => [[c]]
      | p :: ps => (c :: p) :: ps

def ofChars? (s : List Char) : Option (List Char) := do
  let mapped := (s.filter fun c => !isIgnored c).flatMap Folding.fold
  if mapped.any isDenied then none
  else
    let ls ← (labels mapped).mapM label?
    some (['.'].intercalate ls)

/-- The name that some bytes spell. -/
def ofBytes? (b : Bytes) : Option (List Char) := do
  let s ← Text.ofBytes? b
  ofChars? s.toList

end ChatWire.Domain
