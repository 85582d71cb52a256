import ChatWire.Cookie.Jar
import ChatWire.Http.Basic
import ChatWire.Retry.Settings
import ChatWire.Url.Parser

/-! Sessions: the identity of an account on a device, with its cookies and its endpoints. -/

namespace ChatWire

/-- what a session cannot do without -/
inductive Credential
  | uid
  | imei
  | secretKey
  | userAgent
  | apiType
  | apiVersion
  deriving DecidableEq, Repr

inductive SessionError
  | missing (what : Credential)
  | noEndpoints
  | invalidUrl (url : String) (error : UrlError)
  deriving DecidableEq, Repr

def Credential.name : Credential → String
  | uid => "uid"
  | imei => "imei"
  | secretKey => "secret_key"
  | userAgent => "user_agent"
  | apiType => "api_type"
  | apiVersion => "api_version"

def SessionError.message : SessionError → String
  | missing c => "session is missing " ++ c.name
  | noEndpoints => "session has no socket endpoints"
  | invalidUrl url e => "invalid url " ++ url ++ ": " ++ e.message

/-- An error and what caused it, each in words. -/
def SessionError.causes (e : SessionError) : List String :=
  e.message ::
    match e with
    | invalidUrl _ e => [e.message]
    | _ => []

/-- What a session is made of. A number not given is zero; a cookie comes with the URL that set it. -/
structure SessionDraft where
  uid : Option String
  imei : Option String
  secretKey : Option String
  userAgent : Option String
  language : Option String
  apiType : Nat
  apiVersion : Nat
  cookies : List (String × String)
  settings : Settings
  endpoints : List String
  selfListen : Bool
  deriving DecidableEq, Repr

structure Session where
  uid : String
  imei : String
  secretKey : String
  userAgent : String
  language : String
  apiType : Nat
  apiVersion : Nat
  jar : Jar
  settings : Settings
  endpoints : List String
  selfListen : Bool
  deriving DecidableEq, Repr

namespace Session

/-- the page that the account is used from -/
def origin : String := "https://chat.zalo.me"

def defaultLanguage : String := "vi"

def present (value : Option String) (what : Credential) : Except SessionError String :=
  match value with
  | some v => if v.isEmpty then .error (.missing what) else .ok v
  | none => .error (.missing what)

def parseUrl (text : String) : Except SessionError Url :=
  (Url.parse text).mapError (.invalidUrl text)

def addCookie (now : Int) (jar : Jar) (cookie : String × String) : Except SessionError Jar := do
  let u ← parseUrl cookie.2
  pure (jar.set now u cookie.1)

/-- Requirements are looked at in this order: credentials, endpoints, the URLs of the cookies. -/
def build (now : Int) (d : SessionDraft) : Except SessionError Session := do
  let uid ← present d.uid .uid
  let imei ← present d.imei .imei
  let secretKey ← present d.secretKey .secretKey
  let userAgent ← present d.userAgent .userAgent
  if d.apiType = 0 then throw (.missing .apiType)
  if d.apiVersion = 0 then throw (.missing .apiVersion)
  if d.endpoints.isEmpty then throw .noEndpoints
  d.endpoints.forM fun e => do let _ ← parseUrl e
  let jar ← d.cookies.foldlM (addCookie now) .empty
  pure
    { uid, imei, secretKey, userAgent, jar
      language := d.language.getD defaultLanguage
      apiType := d.apiType
      apiVersion := d.apiVersion
      settings := d.settings
      endpoints := d.endpoints
      selfListen := d.selfListen }

/-- The cookies for the page, if they are plain text. -/
def cookieHeader? (now : Int) (s : Session) : Option String :=
  match Url.parse origin with
  | .ok u => (s.jar.header? now u).filter Header.isVisible
  | .error _ => none

end Session

end ChatWire
