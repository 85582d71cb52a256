import ChatWire.Url.Form
import ChatWire.Url.Host

/-! URLs: their parts and their text. -/

namespace ChatWire

/-- what stands between the two slashes and the path -/
structure Site where
  username : String
  password : String
  host : Host
  port : Option Nat
  deriving DecidableEq, Repr

inductive UrlPath
  | opaquePath (text : String)
  | segments (parts : List String)
  deriving DecidableEq, Repr

structure Url where
  scheme : String
  site : Option Site
  path : UrlPath
  query : Option String
  fragment : Option String
  deriving DecidableEq, Repr

namespace Url

/-- schemes with rules of their own -/
def isSpecial (scheme : String) : Bool :=
  ["http", "https", "ws", "wss", "ftp", "file"].contains scheme

def defaultPort? (scheme : String) : Option Nat :=
  if scheme = "http" ∨ scheme = "ws" then some 80
  else if scheme = "https" ∨ scheme = "wss" then some 443
  else if scheme = "ftp" then some 21
  else none

def host (u : Url) : Host := (u.site.map Site.host).getD .empty

/-- the path as a text -/
def pathText (u : Url) : String :=
  match u.path with
  | .opaquePath s => s
  | .segments parts => String.join (parts.map ("/" ++ ·))

end Url

def Site.render (s : Site) : String :=
  let password := if s.password.isEmpty then "" else ":" ++ s.password
  let credentials := s.username ++ password
  let credentials := if credentials.isEmpty then "" else credentials ++ "@"
  let port := (s.port.map fun n => ":" ++ toString n).getD ""
  "//" ++ credentials ++ s.host.render ++ port

namespace Url

/-- A path that would look like a host gets a dot in front. -/
def render (u : Url) : String :=
  let front :=
    match u.site, u.path with
    | some s, _ => s.render
    | none, .segments ("" :: _ :: _) => "/."
    | none, _ => ""
  u.scheme ++ ":" ++ front ++ u.pathText ++ (u.query.map ("?" ++ ·)).getD ""
    ++ (u.fragment.map ("#" ++ ·)).getD ""

/-- the pairs of the query -/
def pairs (u : Url) : List (String × String) := Form.decodePairs (u.query.getD "")

/-- Adds pairs behind the query. -/
def append (pairs : List (String × String)) (u : Url) : Url :=
  if pairs.isEmpty then u
  else
    let more := Form.encodePairs pairs
    let query :=
      match u.query with
      | none | some "" => more
      | some q => q ++ "&" ++ more
    { u with query := some query }

end Url

end ChatWire
