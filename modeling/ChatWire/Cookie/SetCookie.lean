import ChatWire.Bytes.Basic
import ChatWire.Cookie.Date
import ChatWire.Text.Decimal
import ChatWire.Url.Host

/-! What a server says to set a cookie: `name=value; attribute; attribute=value`. -/

namespace ChatWire

/-- `maxAge` is in seconds, and zero or less means at once. -/
structure SetCookie where
  name : String
  value : String
  domain : Option String
  path : Option String
  secure : Bool
  httpOnly : Bool
  maxAge : Option Int
  expires : Option Int
  deriving DecidableEq, Repr

namespace SetCookie

def trimmed (s : List Char) : String := String.ofList (Text.trimChars s)

/-- the text before the first sign of equality, and the text after it, if there is one -/
def cut (s : List Char) : List Char × Option (List Char) :=
  let name := s.takeWhile (· != '=')
  (name, if name.length < s.length then some (s.drop (name.length + 1)) else none)

/-- A negative age counts as zero, one too large for 64 bits as the largest; anything but digits does not
count. -/
def maxAge? (s : String) : Option Int :=
  let (negative, digits) :=
    match s.toList with
    | '-' :: r => (true, r)
    | r => (false, r)
  if !digits.all Decimal.isDigit then none
  else if negative then some 0
  else
    some <|
      match Decimal.natChars? digits with
      | some n => min n greatestInt64
      | none => greatestInt64

/-- Unknown attributes are passed over. -/
def addAttribute (c : SetCookie) (part : List Char) : SetCookie :=
  let (name, value) := cut part
  let name := (trimmed name).toLower
  match name, value.map trimmed with
  | "secure", _ => { c with secure := true }
  | "httponly", _ => { c with httpOnly := true }
  | "max-age", some v =>
    match maxAge? v with
    | some n => { c with maxAge := some n }
    | none => c
  | "domain", some v => if v.isEmpty then c else { c with domain := some v }
  | "path", some v => { c with path := some v }
  | "expires", some v =>
    match Date.parse? v with
    | some d => { c with expires := some d.toSeconds }
    | none => c
  | _, _ => c

/-- A text without a sign of equality or without a name sets no cookie. -/
def parse? (s : String) : Option SetCookie :=
  match Host.split ';' s.toList with
  | [] => none
  | pair :: attributes =>
    match cut pair with
    | (_, none) => none
    | (name, some value) =>
      let name := trimmed name
      if name.isEmpty then none
      else
        some (attributes.foldl addAttribute
          ⟨name, trimmed value, none, none, false, false, none, none⟩)

end SetCookie

end ChatWire
