/-! Socket URLs from those of web pages, and URLs fit to be shown. -/

namespace ChatWire.Scheme

/-- The first occurrence of a text gives way to another. -/
def replaceFirst (old new : List Char) : List Char → List Char
  | [] => if old.isEmpty then new else []
  | c :: r =>
    if old.isPrefixOf (c :: r) then new ++ (c :: r).drop old.length
    else c :: replaceFirst old new r

def isSocket (s : List Char) : Bool := "wss://".toList.isPrefixOf s || "ws://".toList.isPrefixOf s

/-- Outside a socket URL, the first `https://` and then the first `http://` are replaced. -/
def toSocketChars (s : List Char) : List Char :=
  if isSocket s then s
  else replaceFirst "http://".toList "ws://".toList (replaceFirst "https://".toList "wss://".toList s)

def toSocket (url : String) : String := String.ofList (toSocketChars url.toList)

/-- A URL without what its query says. -/
def redact (url : String) : String :=
  let s := url.toList
  let front := s.takeWhile (· != '?')
  if front.length < s.length then String.ofList (front ++ "?…".toList) else url

end ChatWire.Scheme
