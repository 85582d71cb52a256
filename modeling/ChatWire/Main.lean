import ChatWire.CommandLine.Run
import Std.Time.DateTime.Timestamp

/-! The program. It has no sockets: its dials meet a network on which nothing can be reached. -/

namespace ChatWire.CommandLine

/-- milliseconds since the epoch -/
def wallClock : IO Int := do
  return (← Std.Time.Timestamp.now).toMillisecondsSinceUnixEpoch.val

/-- what is looked up in the environment -/
def environmentNames : List String :=
  ["ZWIRE_IMEI", "ZWIRE_SECRET_KEY", "ZWIRE_USER_AGENT", "ZWIRE_SELF_LISTEN", "XDG_CONFIG_HOME", "HOME"]

def environment : IO Config.Environment :=
  environmentNames.filterMapM fun name => return (← IO.getEnv name).map fun value => (name, value)

def readFile (path : String) : IO (Option Bytes) := do
  try
    return some (← IO.FS.readBinFile path).toList
  catch _ => return none

def noNetwork (_ : String) (_ : List (String × String)) : Except SocketError Unit :=
  .error (.io (.ofSystem .other "Network is unreachable (os error 101)"))

/-- more steps than are ever taken -/
def fuel : Nat := 1000000000

def perform : Command → IO (Except Failure (List Line))
  | .sign callType params => return (sign callType params).map fun digest => [.out digest]
  | .zcid imei apiType launchTime => do
    let random ← IO.getRandomBytes (RequestKey.maxExtension + 1).toUSize
    let device : Device := ⟨apiType, imei, launchTime.getD (← wallClock)⟩
    return (zcid device (RequestKey.drawExtension random.toList)).map fun s => (zcidLines s).map .out
  | .listen path selfListen noRetry => do
    let env ← environment
    match path <|> Config.defaultPath? env with
    | none => return .error ["Could not determine config directory"]
    | some path =>
      let content ← readFile path
      let now ← wallClock
      return do
        let s ← listenSession (now / 1000) content env path selfListen
        listen (surroundings noNetwork fun t => now + t) fuel s noRetry

def emit : Line → IO Unit
  | .out text => IO.println text
  | .err text => IO.eprintln text

end ChatWire.CommandLine

open ChatWire.CommandLine in
def main (args : List String) : IO UInt32 := do
  match invocation args with
  | .help topic =>
    topic.text.forM IO.println
    return 0
  | .version =>
    IO.println versionText
    return 0
  | .misuse =>
    Topic.program.text.forM IO.eprintln
    return 2
  | .run command =>
    match ← perform command with
    | .ok lines =>
      lines.forM emit
      return 0
    | .error e =>
      (showFailure e).forM IO.eprintln
      return 1
