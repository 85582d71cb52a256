import ChatWire.CommandLine.Help
import ChatWire.CommandLine.Printing
import ChatWire.Config.Basic
import ChatWire.Listener.Step
import ChatWire.Params.Sealed
import ChatWire.Socket.Uri

/-! What the commands do, given the time, the content of files, the environment, and a network. -/

namespace ChatWire.CommandLine

/-- A failure and what caused it, each in words. -/
abbrev Failure := List String

/-- The lines that a failure is shown with; a lone cause has no number. -/
def showFailure : Failure → List String
  | [] => []
  | [what] => ["Error: " ++ what]
  | [what, why] => ["Error: " ++ what, "", "Caused by:", "    " ++ why]
  | what :: causes =>
    ["Error: " ++ what, "", "Caused by:"]
      ++ causes.zipIdx.map fun (c, n) => "    " ++ toString n ++ ": " ++ c

/-! Signing. -/

/-- A pair is split at its first `=`. -/
def pair? (text : String) : Option (String × String) :=
  let cs := text.toList
  let key := cs.takeWhile (· != '=')
  if key.length < cs.length then some (String.ofList key, String.ofList (cs.drop (key.length + 1)))
  else none

def parsePair (text : String) : Except Failure (String × String) :=
  match pair? text with
  | some p => .ok p
  | none => .error ["expected key=value, got '" ++ text ++ "'"]

def sign (callType : String) (params : List String) : Except Failure String :=
  (params.mapM parsePair).map (Signature.sign callType)

/-! Tokens. -/

/-- A token and the key of an extension that is drawn at random. -/
def zcid (d : Device) (extension : String) : Except Failure Sealer :=
  (Sealer.make d extension).mapError fun e => [e.message]

def zcidLines (s : Sealer) : List String :=
  ["zcid:     " ++ s.token, "zcid_ext: " ++ s.extension, "key:      " ++ s.key]

/-! Listening. -/

def listenSession (now : Int) (content : Option Bytes) (env : Config.Environment) (path : String)
    (selfListen : Bool) : Except Failure Session := do
  let failure (e : ConfigError) : Failure := let (what, why) := e.chain path; [what, why]
  let c ← (Config.load content env).mapError failure
  ({ c with selfListen := c.selfListen || selfListen }.session now).mapError failure

/-- How dials turn out on a network. -/
def surroundings (connect : String → List (String × String) → Except SocketError Unit)
    (wallClock : Nat → Int) : Surroundings where
  dial _ d :=
    ⟨0, match Socket.dial connect d.url d.headers with
      | .ok () => none
      | .error e => some e⟩
  wallClock

/-- Starts to listen. -/
def startListening (world : Surroundings) (fuel : Nat) (s : Session) (noRetry : Bool) :
    Except Failure Listener :=
  let l := Listener.create s
  let (token, tokens) := l.tokens.root
  let l := Listener.settle world fuel { l with tokens, work := [.start token (!noRetry) .check] }
  match l.work with
  | .start _ _ (.finished (.error e)) :: _ => .error ("Failed to start listener" :: e.causes)
  | _ => .ok l

/-- Prints all there is, stream by stream. -/
def printAll (fuel : Nat) (p : Printing) : Printing :=
  Schedule.settle (fun _ => Stream.all.map .print ++ [.quit]) Printing.step fuel p

/-- Prints and lets time pass in turns, until the listener has closed or nothing more can happen. -/
def listenLoop (world : Surroundings) (fuel : Nat) : Nat → Listener → List Event → List Event
  | 0, _, printed => printed
  | turns + 1, l, printed =>
    let p := printAll fuel ⟨l.events, printed, false⟩
    if p.finished then p.printed
    else
      let l := { l with events := p.events }
      let c := Listener.clock world fuel
      match c.next? l with
      | none => p.printed
      | some t => listenLoop world fuel turns (c.settle (c.set t l)) p.printed

def listen (world : Surroundings) (fuel : Nat) (s : Session) (noRetry : Bool) :
    Except Failure (List Line) :=
  (startListening world fuel s noRetry).map fun l => (listenLoop world fuel fuel l []).map line

end ChatWire.CommandLine
