import ChatWire.Cookie.SetCookie
import ChatWire.Url.Basic

/-! Cookie jars: which cookies a URL may set, and which ones a request to a URL carries. -/

namespace ChatWire

/-- The hosts that a cookie is for: one alone, or one with all below it. -/
inductive CookieScope
  | only (host : String)
  | below (suffix : String)
  deriving DecidableEq, Repr

/-- `expires` is a time in seconds; without it a cookie lasts as long as the jar. -/
structure Cookie where
  name : String
  value : String
  scope : CookieScope
  path : String
  secure : Bool
  httpOnly : Bool
  expires : Option Int
  deriving DecidableEq, Repr

namespace CookieScope

def host : CookieScope → String
  | only h => h
  | below s => s

def covers (scope : CookieScope) (u : Url) : Bool :=
  match u.host with
  | .empty => false
  | h =>
    let name := h.render
    match scope with
    | only host => host == name
    | below suffix =>
      suffix == name ||
        match h with
        | .domain _ => ('.' :: suffix.toList).isSuffixOf name.toList
        | _ => false

end CookieScope

namespace Cookie

def expired (now : Int) (c : Cookie) : Bool :=
  match c.expires with
  | some t => t ≤ now
  | none => false

/-- The directory of a URL. -/
def defaultPath (u : Url) : String :=
  match u.path with
  | .opaquePath _ => "/"
  | .segments parts =>
    match parts.dropLast with
    | [] => "/"
    | up => String.join (up.map ("/" ++ ·))

def isWeb (u : Url) : Bool := "http".toList.isPrefixOf u.scheme.toList

/-- Connections that nobody can listen to: encrypted ones, and those to this machine. -/
def isSecure (u : Url) : Bool :=
  u.scheme == "https" ||
    match u.host with
    | .domain name => name == "localhost"
    | .ipv4 n => n / 16777216 == 127
    | .ipv6 pieces => pieces == [0, 0, 0, 0, 0, 0, 0, 1]
    | .empty => false

def pathMatches (path : String) (u : Url) : Bool :=
  match u.path with
  | .opaquePath _ => false
  | .segments _ =>
    let p := path.toList
    let request := u.pathText.toList
    p == request ||
      (p.isPrefixOf request && (p.getLast? == some '/' || request[p.length]? == some '/'))

/-- whether a request to `u` carries the cookie -/
def covers (c : Cookie) (u : Url) : Bool :=
  pathMatches c.path u && c.scope.covers u && (!c.secure || isSecure u) && (!c.httpOnly || isWeb u)

/-- The leading dot of a domain does not count. -/
def scopeOf? (s : SetCookie) (u : Url) : Option CookieScope :=
  match s.domain with
  | none =>
    match u.host with
    | .empty => none
    | h => some (.only h.render)
  | some d => do
    let withoutDot (l : List Char) : List Char := if l.head? = some '.' then l.drop 1 else l
    let name ← Domain.ofChars? (Text.trimChars (withoutDot d.toList))
    if name.isEmpty then none else some (.below (String.ofList (withoutDot name)))

/-- The cookie that a URL sets at a given time, if it may set it. An age counts before a date. -/
def ofSetCookie? (now : Int) (s : SetCookie) (u : Url) : Option Cookie := do
  if s.httpOnly ∧ ¬ isWeb u then none
  else
    let scope ← scopeOf? s u
    if !scope.covers u then none
    else
      let path :=
        match s.path with
        | some p => if p.toList.head? = some '/' then p else defaultPath u
        | none => defaultPath u
      let expires :=
        match s.maxAge with
        | some n => some (now + n)
        | none => s.expires
      some ⟨s.name, s.value, scope, path, s.secure, s.httpOnly, expires⟩

/-- Cookies with the same host, path and name are the same cookie. -/
def same (a b : Cookie) : Bool :=
  a.scope.host == b.scope.host && a.path == b.path && a.name == b.name

end Cookie

structure Jar where
  cookies : List Cookie
  deriving DecidableEq, Repr

namespace Jar

def empty : Jar := ⟨[]⟩

/-- Puts a cookie in the place of the one that it replaces. One that has expired only removes. -/
def insert (now : Int) (u : Url) (c : Cookie) (j : Jar) : Jar :=
  match j.cookies.find? c.same with
  | some old =>
    if old.httpOnly ∧ ¬ Cookie.isWeb u then j
    else if c.expired now then ⟨j.cookies.filter fun d => !c.same d⟩
    else ⟨j.cookies.map fun d => if c.same d then c else d⟩
  | none => if c.expired now then j else ⟨j.cookies ++ [c]⟩

/-- Takes what a server at `u` says into account. -/
def set (now : Int) (u : Url) (text : String) (j : Jar) : Jar :=
  match (SetCookie.parse? text).bind fun s => Cookie.ofSetCookie? now s u with
  | some c => j.insert now u c
  | none => j

/-- The cookies of a request, written for its header; none if there are none. -/
def header? (now : Int) (u : Url) (j : Jar) : Option String :=
  match j.cookies.filter fun c => c.covers u && !c.expired now with
  | [] => none
  | l => some (String.intercalate "; " (l.map fun c => c.name ++ "=" ++ c.value))

end Jar

end ChatWire
