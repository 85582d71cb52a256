import ChatWire.Bytes.Basic
import ChatWire.Http.Basic
import ChatWire.Socket.Error
import ChatWire.Socket.Scheme

/-! Which texts name something to open a socket to: a scheme, which may be missing, and an authority, then a
path and a query; and opening a socket. -/

namespace ChatWire.Uri

def isAlphanumeric (b : UInt8) : Bool :=
  (48 ≤ b && b ≤ 57) || (65 ≤ b && b ≤ 90) || (97 ≤ b && b ≤ 122)

/-- the bytes `+ - . ~`, letters and digits -/
def isSchemeByte (b : UInt8) : Bool := isAlphanumeric b || [43, 45, 46, 126].contains b

def maxSchemeSize : Nat := 64

def maxSize : Nat := 65534

/-- What follows the scheme and its `://`, if there is a scheme. -/
def afterScheme (b : Bytes) : Except SocketError (Option Bytes) :=
  let name := b.takeWhile isSchemeByte
  match b.drop name.length with
  | 58 :: 47 :: 47 :: rest =>
    if b.length ≤ 3 then .ok none
    else if maxSchemeSize < name.length then .error .malformedUri
    else .ok (some rest)
  | _ => .ok none

/-- `/`, `?` and `#` end an authority. -/
def endsAuthority (b : UInt8) : Bool := [47, 63, 35].contains b

/-- Bytes of an authority without a meaning of their own: letters, digits and `! $ & ' ( ) * + , - . ; = _ ~`. -/
def isPlain (b : UInt8) : Bool :=
  isAlphanumeric b || [33, 36, 38, 39, 40, 41, 42, 43, 44, 45, 46, 59, 61, 95, 126].contains b

/-- What has been seen of an authority: colons and percent signs since the last `@` or `]`, an opening and a
closing bracket, and whether an `@` comes last. -/
structure Seen where
  colons : Nat
  percent : Bool
  opened : Bool
  closed : Bool
  atLast : Bool

def maxColons : Nat := 8

def see (s : Seen) (b : UInt8) : Except SocketError Seen :=
  let s := { s with atLast := false }
  if b = 58 then
    if maxColons ≤ s.colons then .error .malformedUri else .ok { s with colons := s.colons + 1 }
  else if b = 91 then
    if s.percent ∨ s.opened then .error .malformedUri else .ok { s with opened := true }
  else if b = 93 then
    if !s.opened ∨ s.closed then .error .malformedUri
    else .ok { s with closed := true, colons := 0, percent := false }
  else if b = 64 then .ok { s with atLast := true, colons := 0, percent := false }
  else if b = 37 then .ok { s with percent := true }
  else if isPlain b then .ok s
  else .error .malformedUri

def checkAuthority (b : Bytes) : Except SocketError Unit := do
  let s ← b.foldlM see ⟨0, false, false, false, false⟩
  if s.opened != s.closed ∨ 1 < s.colons ∨ s.atLast ∨ s.percent then throw .malformedUri

def isPathByte (b : UInt8) : Bool :=
  b == 33 || (36 ≤ b && b ≤ 59) || b == 61 || (64 ≤ b && b ≤ 95) || (97 ≤ b && b ≤ 122)
    || [124, 126, 34, 123, 125].contains b || 127 ≤ b

def isQueryByte (b : UInt8) : Bool := b == 33 || (36 ≤ b && b ≤ 59) || b == 61 || 63 ≤ b

/-- A path, and a query after the first `?`; what follows a `#` does not count. -/
def checkPath (b : Bytes) : Except SocketError Unit :=
  let named := b.takeWhile (· != 35)
  let path := named.takeWhile (· != 63)
  if path.all isPathByte && (named.drop (path.length + 1)).all isQueryByte then .ok ()
  else .error .malformedUri

/-- What comes after the first `@`, or all if there is none. -/
def host (authority : Bytes) : Bytes :=
  match authority.dropWhile (· != 64) with
  | _ :: rest => rest
  | [] => authority

/-- Without a scheme there is nothing but an authority; with one the authority must not be empty. A path alone
names no host. -/
def checkBytes (b : Bytes) : Except SocketError Unit := do
  if b.isEmpty ∨ maxSize < b.length then throw .malformedUri
  if b = [42] then throw .noHost
  if b.head? = some 47 then
    checkPath b
    throw .noHost
  let scheme ← afterScheme b
  let rest := scheme.getD b
  let authority := rest.takeWhile fun x => !endsAuthority x
  checkAuthority authority
  let path := rest.drop authority.length
  if scheme.isNone ∧ path ≠ [] ∨ authority = [] then throw .malformedUri
  checkPath path
  if (host authority).isEmpty then throw .noHost

def check (uri : String) : Except SocketError Unit := checkBytes (Text.toBytes uri)

end ChatWire.Uri

/-! Opening a socket: the URL is looked at first, then the header fields in their order. -/

namespace ChatWire.Socket

def checkHeader (field : String × String) : Except TransportError Unit :=
  if !Header.isName field.1 then .error (.invalidHeader field.1 "invalid HTTP header name")
  else if !Header.isValue field.2 then .error (.invalidHeader field.1 "failed to parse header value")
  else .ok ()

/-- `connect` opens the socket to a URL. What is said of a URL that cannot be opened leaves out its query. -/
def dial {α : Type} (connect : String → List (String × String) → Except SocketError α) (url : String)
    (headers : List (String × String)) : Except TransportError α := do
  (Uri.check url).mapError (.invalidUrl url)
  headers.forM checkHeader
  (connect url headers).mapError (.dial (Scheme.redact url))

end ChatWire.Socket
