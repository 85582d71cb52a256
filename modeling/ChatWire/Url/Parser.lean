import ChatWire.Url.Basic

/-! Reading a URL from text, as browsers do it: forgiving about blanks, slashes and dots, strict about
hosts and ports. -/

namespace ChatWire.Url

def isAlpha (c : Char) : Bool := ('a' ≤ c && c ≤ 'z') || ('A' ≤ c && c ≤ 'Z')

def isSchemeChar (c : Char) : Bool :=
  isAlpha c || ('0' ≤ c && c ≤ '9') || c == '+' || c == '-' || c == '.'

/-- blanks and controls at the ends, and line breaks and tabs anywhere, do not count -/
def clean (s : String) : List Char :=
  let isEdge (c : Char) : Bool := c.toNat ≤ 32
  let s := s.toList.dropWhile isEdge
  let s := (s.reverse.dropWhile isEdge).reverse
  s.filter fun c => c != '\t' && c != '\n' && c != '\x0d'

/-- The scheme in lower case, and what follows the colon. -/
def scheme? (s : List Char) : Option (String × List Char) :=
  let name := s.takeWhile isSchemeChar
  match name, s.drop name.length with
  | c :: _, ':' :: rest => if isAlpha c then some (String.ofList (name.map Char.toLower), rest) else none
  | _, _ => none

/-! Bytes that are escaped in each part. -/

def escapedInFragment (b : UInt8) : Bool :=
  Host.isControl b || [32, 34, 60, 62, 96].contains b

def escapedInPath (b : UInt8) : Bool := escapedInFragment b || [35, 63, 123, 125].contains b

def escapedInUser (b : UInt8) : Bool :=
  escapedInPath b || [47, 58, 59, 61, 64, 91, 92, 93, 94, 124].contains b

def escapedInQuery (special : Bool) (b : UInt8) : Bool :=
  Host.isControl b || [32, 34, 35, 60, 62].contains b || (special && b == 39)

def escape (set : UInt8 → Bool) (s : List Char) : String := Percent.encode set (String.ofList s)

def isSlash (special : Bool) (c : Char) : Bool := c == '/' || (special && c == '\\')

/-- what ends the part between the slashes and the path -/
def endsSite (special : Bool) (c : Char) : Bool := isSlash special c || c == '?' || c == '#'

/-! Credentials, host and port. -/

/-- what stands before the last at sign and what stands behind it -/
def splitCredentials? (s : List Char) : Option (List Char × List Char) :=
  if s.contains '@' then
    let behind := (s.reverse.takeWhile (· != '@')).reverse
    some (s.take (s.length - behind.length - 1), behind)
  else none

/-- how far a host goes: up to a colon outside brackets -/
def hostLength : Bool → List Char → Nat
  | _, [] => 0
  | inside, c :: r =>
    if c = ':' ∧ ¬ inside then 0
    else hostLength (c == '[' || (inside && c != ']')) r + 1

/-- digits up to the end of the site -/
def port? (s : List Char) : Option (Option Nat) :=
  if s.isEmpty then some none
  else
    match s.foldlM (fun n c => (Host.digitValue? 10 c).map fun d => min (n * 10 + d) 65536) 0 with
    | some n => if n < 65536 then some (some n) else none
    | none => none

/-- The site that a text spells, in which nothing comes after the port. -/
def parseSite (scheme : String) (text : List Char) : Except UrlError Site := do
  let special := isSpecial scheme
  let (credentials, address) :=
    match splitCredentials? text with
    | some (c, a) => (c, a)
    | none => ([], text)
  let user := credentials.takeWhile (· != ':')
  let password := credentials.drop (user.length + 1)
  let n := hostLength false address
  let hostText := address.take n
  if special ∧ hostText.isEmpty then throw .emptyHost
  let host ← if special then Host.parse hostText else Host.parseOpaque hostText
  let rest := address.drop n
  if host = .empty ∧ (¬ rest.isEmpty ∨ ¬ (user.isEmpty ∧ password.isEmpty)) then throw .emptyHost
  let some port := port? (rest.drop 1) | throw .port
  pure
    { username := escape escapedInUser user
      password := escape escapedInUser password
      host
      port := if port = defaultPort? scheme then none else port }

/-! Paths. -/

def dotForms : List String := [".", "%2e", "%2E"]

def doubleDotForms : List String :=
  ["..", "%2e%2e", "%2e%2E", "%2E%2e", "%2E%2E", "%2e.", "%2E.", ".%2e", ".%2E"]

/-- the parts of a path between slashes -/
def splitPath (special : Bool) : List Char → List (List Char)
  | [] => [[]]
  | c :: r =>
    if isSlash special c then [] :: splitPath special r
    else
      match splitPath special r with
      | [] => [[c]]
      | p :: ps => (c :: p) :: ps

/-- a letter that names a drive -/
def isDrive (s : List Char) : Bool :=
  match s with
  | [c, d] => isAlpha c && (d == ':' || d == '|')
  | _ => false

/-- Goes one part up, but not above a drive. -/
def shorten (file : Bool) : List String → List String
  | [] => []
  | p :: r => if file ∧ r.isEmpty ∧ isDrive p.toList then [p] else r

/-- Resolves dots. The parts done come last first; after a dot at the end an empty part remains. -/
def resolve (file : Bool) : List (List Char) → List String → List String
  | [], done => done.reverse
  | part :: rest, done =>
    let name := String.ofList part
    if doubleDotForms.contains name then
      let up := shorten file done
      resolve file rest (if rest.isEmpty then "" :: up else up)
    else if dotForms.contains name then
      resolve file rest (if rest.isEmpty then "" :: done else done)
    else if file ∧ done.isEmpty ∧ isDrive part then
      resolve file rest (String.ofList (part.take 1 ++ [':']) :: done)
    else resolve file rest (escape escapedInPath part :: done)

/-- Empty parts in front of others go. -/
def dropEmpty : List String → List String
  | "" :: p :: r => dropEmpty (p :: r)
  | l => l

def parsePath (scheme : String) (text : List Char) : UrlPath :=
  let special := isSpecial scheme
  let file := scheme == "file"
  match text with
  | [] => .segments (if special then [""] else [])
  | c :: r =>
    let parts := splitPath special (if isSlash special c then r else c :: r)
    let parts := resolve file parts []
    .segments (if file then dropEmpty parts else parts)

/-! The whole. -/

/-- Splits off the query and the fragment. -/
def splitTail (special : Bool) (s : List Char) : List Char × Option String × Option String :=
  let path := s.takeWhile fun c => c != '?' && c != '#'
  let rest := s.drop path.length
  let (query, rest) :=
    match rest with
    | '?' :: r =>
      let q := r.takeWhile (· != '#')
      (some (escape (escapedInQuery special) q), r.drop q.length)
    | r => (none, r)
  let fragment :=
    match rest with
    | '#' :: r => some (escape escapedInFragment r)
    | _ => none
  (path, query, fragment)

/-- A URL with a site, given what follows the slashes. -/
def parseWithSite (scheme : String) (s : List Char) : Except UrlError Url := do
  let special := isSpecial scheme
  let text := s.takeWhile fun c => !endsSite special c
  if text = ['@'] ∧ text.length < s.length then throw .emptyHost
  let site ← parseSite scheme text
  let (path, query, fragment) := splitTail special (s.drop text.length)
  pure ⟨scheme, some site, parsePath scheme path, query, fragment⟩

/-- The name of this machine, which is left out. -/
def fileHost (text : List Char) : Except UrlError Host :=
  if text.isEmpty then .ok .empty
  else do
    let host ← Host.parse text
    pure (if host = .domain "localhost" then .empty else host)

def parseFile (s : List Char) : Except UrlError Url := do
  let (host, rest) ←
    match s with
    | a :: b :: r =>
      if isSlash true a ∧ isSlash true b then
        let text := r.takeWhile fun c => !endsSite true c
        if isDrive text then pure (Host.empty, r)
        else pure (← fileHost text, r.drop text.length)
      else pure (Host.empty, s)
    | _ => pure (Host.empty, s)
  let (path, query, fragment) := splitTail true rest
  pure ⟨"file", some ⟨"", "", host, none⟩, parsePath "file" path, query, fragment⟩

/-- A URL of a scheme without rules of its own. -/
def parsePlain (scheme : String) (s : List Char) : Except UrlError Url :=
  match s with
  | '/' :: '/' :: r => parseWithSite scheme r
  | _ =>
    let (text, query, fragment) := splitTail false s
    let path :=
      match text with
      | '/' :: _ => parsePath scheme text
      | _ => .opaquePath (escape Host.isControl text)
    .ok ⟨scheme, none, path, query, fragment⟩

def parse (text : String) : Except UrlError Url :=
  match scheme? (clean text) with
  | none => .error .relative
  | some (scheme, rest) =>
    if scheme = "file" then parseFile rest
    else if isSpecial scheme then parseWithSite scheme (rest.dropWhile (isSlash true))
    else parsePlain scheme rest

end ChatWire.Url
