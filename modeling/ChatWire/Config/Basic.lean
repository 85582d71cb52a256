import ChatWire.Bytes.Basic
import ChatWire.Session.Basic
import ChatWire.Socket.Scheme

/-! The configuration file: a session as JSON. The secret key is read from it but never written to it. -/

namespace ChatWire

structure Config where
  uid : String
  imei : String
  secretKey : String
  userAgent : String
  language : Option String
  cookies : List String
  apiType : Nat
  apiVersion : Nat
  endpoints : List String
  selfListen : Bool
  socket : Settings
  deriving DecidableEq, Repr

/-- Why a configuration gives no session. -/
inductive ConfigError
  | unreadable (fault : InputFault)
  | malformed (fault : Json.Fault)
  | session (error : SessionError)
  deriving DecidableEq, Repr

namespace ConfigError

/-- What went wrong, and then why. -/
def chain (path : String) : ConfigError → String × String
  | unreadable f => ("Failed to read config file " ++ path, f.message)
  | malformed f => ("Failed to parse config file " ++ path, f.message)
  | session e => ("Invalid session configuration", e.message)

def message (path : String) (e : ConfigError) : String :=
  let (what, why) := e.chain path
  what ++ ": " ++ why

end ConfigError

namespace Config

def empty : Config := ⟨"", "", "", "", none, [], 0, 0, [], false, .none⟩

open Json.Reading in
/-- Every field may be absent. -/
def reading : Json.Reading Config :=
  record empty
    [ field "uid" string fun v c => { c with uid := v },
      field "imei" string fun v c => { c with imei := v },
      field "secret_key" string fun v c => { c with secretKey := v },
      field "user_agent" string fun v c => { c with userAgent := v },
      field "language" (optional string) fun v c => { c with language := v },
      field "cookies" (list string) fun v c => { c with cookies := v },
      field "api_type" nat32 fun v c => { c with apiType := v },
      field "api_version" nat32 fun v c => { c with apiVersion := v },
      field "endpoints" (list string) fun v c => { c with endpoints := v },
      field "self_listen" bool fun v c => { c with selfListen := v },
      field "socket" Settings.reading fun v c => { c with socket := v } ]

/-- The fields as they are written: without the secret key, and without a language that is not given. -/
def toJson (c : Config) : Json :=
  .obj <|
    [("uid", .str c.uid), ("imei", .str c.imei), ("user_agent", .str c.userAgent)] ++
      (c.language.toList.map fun l => ("language", .str l)) ++
      [("cookies", .strings c.cookies), ("api_type", .nat c.apiType), ("api_version", .nat c.apiVersion),
        ("endpoints", .strings c.endpoints), ("self_listen", .bool c.selfListen),
        ("socket", c.socket.toJson)]

/-- Takes the content of a file, or its absence. -/
def parse (content : Option Bytes) : Except ConfigError Config := do
  let some bytes := content | throw (.unreadable .missing)
  let some text := Text.ofBytes? bytes | throw (.unreadable .notText)
  (reading.parseText text).mapError .malformed

/-- Values from the environment, by name. -/
abbrev Environment := List (String × String)

/-- What the environment says goes before what the file says. Anything but `true` and `false` says nothing
about listening to oneself. -/
def override (env : Environment) (c : Config) : Config :=
  let get (name old : String) : String := (env.lookup name).getD old
  { c with
    imei := get "ZWIRE_IMEI" c.imei
    secretKey := get "ZWIRE_SECRET_KEY" c.secretKey
    userAgent := get "ZWIRE_USER_AGENT" c.userAgent
    selfListen :=
      match env.lookup "ZWIRE_SELF_LISTEN" with
      | some "true" => true
      | some "false" => false
      | _ => c.selfListen }

/-- Where the file is unless a path is given: in the directory for configurations, if there is one. -/
def defaultPath? (env : Environment) : Option String :=
  let own := (env.lookup "XDG_CONFIG_HOME").filter fun d => "/".isPrefixOf d
  let home := (env.lookup "HOME").filter fun d => !d.isEmpty
  (own <|> home.map (· ++ "/.config")).map (· ++ "/zwire/config.json")

def load (content : Option Bytes) (env : Environment) : Except ConfigError Config :=
  (parse content).map (override env)

/-- The session; endpoints become socket URLs, and cookies belong to the page. -/
def draft (c : Config) : SessionDraft where
  uid := some c.uid
  imei := some c.imei
  secretKey := some c.secretKey
  userAgent := some c.userAgent
  language := some (c.language.getD Session.defaultLanguage)
  apiType := c.apiType
  apiVersion := c.apiVersion
  cookies := c.cookies.map fun text => (text, Session.origin)
  settings := c.socket
  endpoints := c.endpoints.map Scheme.toSocket
  selfListen := c.selfListen

def session (now : Int) (c : Config) : Except ConfigError Session :=
  (Session.build now c.draft).mapError .session

end Config

end ChatWire
