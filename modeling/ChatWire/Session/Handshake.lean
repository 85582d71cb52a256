import ChatWire.Params.Key
import ChatWire.Session.Basic

/-! URLs of a session: a base with parameters added, and the signed URL of a socket handshake. -/

namespace ChatWire

namespace Session

/-- Those pairs whose name is neither among `names` nor the name of an earlier pair. -/
def missingPairs : List String → List (String × String) → List (String × String)
  | _, [] => []
  | names, (k, v) :: r =>
    if names.contains k then missingPairs names r else (k, v) :: missingPairs (k :: names) r

/-- the parameters that name the interface -/
def versionPairs (s : Session) : List (String × String) :=
  [("zpw_ver", toString s.apiVersion), ("zpw_type", toString s.apiType)]

/-- The URL of `base` with the missing ones of the given parameters. -/
def makeUrl (s : Session) (base : String) (params : List (String × String)) (withVersion : Bool) :
    Except SessionError String := do
  let u ← parseUrl base
  let wanted := params ++ if withVersion then s.versionPairs else []
  pure (u.append (missingPairs (u.pairs.map Prod.fst) wanted)).render

/-- the type of call that a handshake counts as -/
def handshakeCall : String := "listen"

/-- The endpoint with a time stamp, the interface, and a signature over all parameters. -/
def handshakeUrl (s : Session) (endpoint : String) (nowMs : Int) : Except SessionError String := do
  let unsigned ← s.makeUrl endpoint [("t", toString nowMs)] true
  let u ← parseUrl unsigned
  s.makeUrl unsigned [("signkey", Signature.sign handshakeCall u.pairs)] false

/-- The header fields of a handshake. -/
def handshakeHeaders (now : Int) (s : Session) : List (String × String) :=
  [("accept-language", s.language), ("cache-control", "no-cache"), ("origin", origin),
    ("user-agent", s.userAgent)] ++
    (s.cookieHeader? now).toList.map fun c => ("cookie", c)

end Session

end ChatWire
