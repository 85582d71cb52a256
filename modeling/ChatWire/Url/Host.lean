import ChatWire.Text.Percent
import ChatWire.Url.Domain

/-! Hosts: names, addresses of both kinds, and the opaque names of schemes that have no rules of their
own. -/

namespace ChatWire

/-- Why a text is no URL. -/
inductive UrlError
  | relative
  | emptyHost
  | domainName
  | domainCharacter
  | ipv4
  | ipv6
  | port
  deriving DecidableEq, Repr

def UrlError.message : UrlError → String
  | relative => "relative URL without a base"
  | emptyHost => "empty host"
  | domainName => "invalid international domain name"
  | domainCharacter => "invalid domain character"
  | ipv4 => "invalid IPv4 address"
  | ipv6 => "invalid IPv6 address"
  | port => "invalid port number"

inductive Host
  | empty
  | domain (name : String)
  | ipv4 (address : Nat)
  | ipv6 (pieces : List Nat)
  deriving DecidableEq, Repr

namespace Host

/-- the parts of a text between separators -/
def split (separator : Char) : List Char → List (List Char)
  | [] => [[]]
  | c :: r =>
    if c = separator then [] :: split separator r
    else
      match split separator r with
      | [] => [[c]]
      | p :: ps => (c :: p) :: ps

def digitValue? (base : Nat) (c : Char) : Option Nat := (Hex.value? c).filter (· < base)

/-- a number in the given base; nothing at all is zero -/
def numberIn? (base : Nat) (s : List Char) : Option Nat :=
  s.foldlM (fun n c => (digitValue? base c).map fun d => n * base + d) 0

/-- A part of an address in decimal, octal or hexadecimal notation. -/
def ipv4Number? : List Char → Option Nat
  | [] => none
  | '0' :: 'x' :: r => numberIn? 16 r
  | '0' :: 'X' :: r => numberIn? 16 r
  | '0' :: c :: r => numberIn? 8 (c :: r)
  | s => numberIn? 10 s

def ipv4Parts (s : List Char) : List (List Char) :=
  let parts := split '.' s
  if parts.length > 1 ∧ parts.getLastD [] = [] then parts.dropLast else parts

/-- A name whose last part is a number has to be an address. -/
def endsInNumber (s : List Char) : Bool :=
  let last := (ipv4Parts s).getLastD []
  (!last.isEmpty && last.all fun c => '0' ≤ c && c ≤ '9') || (ipv4Number? last).isSome

/-- Every part but the last is a byte; the last one fills the bytes that remain. -/
def ipv4? (s : List Char) : Option Nat := do
  let parts := ipv4Parts s
  if parts.length > 4 then none
  else
    let numbers ← parts.mapM ipv4Number?
    let last := numbers.getLastD 0
    let firsts := numbers.dropLast
    if last ≥ 1 <<< (8 * (4 - firsts.length)) ∨ firsts.any (· > 255) then none
    else
      some (firsts.zipIdx.foldl (fun n (x, i) => n + x <<< (8 * (3 - i))) last)

/-- a decimal byte without leading zeros -/
def decimalByte? (s : List Char) : Option Nat :=
  if s.isEmpty ∨ (s.length > 1 ∧ s.head? = some '0') ∨ s.length > 3 then none
  else (numberIn? 10 s).filter (· ≤ 255)

/-- The pieces that a group of digits stands for; the last group may be an address of the other kind. -/
def ipv6Group? (last : Bool) (s : List Char) : Option (List Nat) :=
  if s.contains '.' then
    if last then
      match (split '.' s).mapM decimalByte? with
      | some [a, b, c, d] => some [a * 256 + b, c * 256 + d]
      | _ => none
    else none
  else if s.isEmpty ∨ s.length > 4 then none
  else (numberIn? 16 s).map fun n => [n]

def ipv6Groups? (final : Bool) (s : List Char) : Option (List Nat) :=
  if s.isEmpty then some []
  else
    let groups := split ':' s
    let last := groups.length - 1
    (groups.zipIdx.mapM fun (g, i) => ipv6Group? (final && i == last) g).map List.flatten

/-- the text before the first `::` and the text after it -/
def splitGap : List Char → List Char × Option (List Char)
  | [] => ([], none)
  | ':' :: ':' :: r => ([], some r)
  | c :: r =>
    let (before, after) := splitGap r
    (c :: before, after)

/-- Eight pieces, of which a gap stands for at least one. -/
def ipv6? (s : List Char) : Option (List Nat) := do
  match splitGap s with
  | (all, none) => (ipv6Groups? true all).filter (·.length == 8)
  | (before, some after) =>
    let first ← ipv6Groups? false before
    let second ← ipv6Groups? true after
    let given := first.length + second.length
    if given > 7 then none else some (first ++ List.replicate (8 - given) 0 ++ second)

/-- characters that have no place in the name of a host -/
def isForbidden (c : Char) : Bool :=
  ['\x00', '\t', '\n', '\x0d', ' ', '#', '/', ':', '<', '>', '?', '@', '[', '\\', ']', '^', '|'].contains c

def bracketed? (s : List Char) : Option (Except UrlError Host) :=
  match s with
  | '[' :: r =>
    match r.getLast? with
    | some ']' =>
      match ipv6? r.dropLast with
      | some pieces => some (.ok (.ipv6 pieces))
      | none => some (.error .ipv6)
    | _ => some (.error .ipv6)
  | _ => none

def isControl (b : UInt8) : Bool := b < 32 || b == 127

/-- The host of a scheme without rules of its own. -/
def parseOpaque (s : List Char) : Except UrlError Host :=
  match bracketed? s with
  | some r => r
  | none =>
    if s.any isForbidden then .error .domainCharacter
    else if s.isEmpty then .ok .empty
    else .ok (.domain (Percent.encode isControl (String.ofList s)))

/-- The host of one of the well-known schemes. -/
def parse (s : List Char) : Except UrlError Host :=
  match bracketed? s with
  | some r => r
  | none =>
    match Domain.ofBytes? (Percent.decodeBytes (Text.toBytes (String.ofList s))) with
    | none => .error .domainName
    | some [] => .error .emptyHost
    | some name =>
      if endsInNumber name then
        match ipv4? name with
        | some a => .ok (.ipv4 a)
        | none => .error .ipv4
      else .ok (.domain (String.ofList name))

def hexPiece (n : Nat) : List Char := Nat.toDigits 16 n

/-- how many zeros stand in front -/
def zeroRun (l : List Nat) : Nat := (l.takeWhile (· == 0)).length

/-- The first of the longest runs of two zeros or more: where it starts, and its length. -/
def longestRun (pieces : List Nat) : Nat × Nat :=
  (List.range pieces.length).foldl
    (fun (start, length) i =>
      let n := zeroRun (pieces.drop i)
      if n > length ∧ n > 1 then (i, n) else (start, length))
    (0, 0)

def ipv6Chars (pieces : List Nat) : List Char :=
  let join (l : List Nat) : List Char := [':'].intercalate (l.map hexPiece)
  let (start, length) := longestRun pieces
  if length = 0 then join pieces
  else join (pieces.take start) ++ [':', ':'] ++ join (pieces.drop (start + length))

def ipv4Text (n : Nat) : String :=
  String.intercalate "." <|
    [n / 16777216, n / 65536 % 256, n / 256 % 256, n % 256].map fun x : Nat => toString x

def render : Host → String
  | empty => ""
  | domain name => name
  | ipv4 n => ipv4Text n
  | ipv6 pieces => String.ofList ('[' :: (ipv6Chars pieces ++ [']']))

end Host

end ChatWire
