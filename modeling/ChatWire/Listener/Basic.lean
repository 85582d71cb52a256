import ChatWire.Listener.Events
import ChatWire.Retry.Policy
import ChatWire.Task.Cancellation
import ChatWire.Task.Tracker
import ChatWire.Transport.Tasks

/-! Listeners. A listener keeps one connection at a time, which it replaces when it closes, for as long as its
retry budgets last. All that its tasks share is here, together with the tasks themselves; what they do is in
the modules beside this one. -/

namespace ChatWire

inductive Phase
  | idle
  | connecting
  | connected
  | disconnected
  | reconnecting
  | closed
  deriving DecidableEq, Repr

/-- What is known of the connection that is held: its transport, the key that the server gave, the number of
requests stamped, a token that lives as long as the connection, and one for the task that pings. The number of requests
has no bound; a counter of 64 bits says the same of the first 2 ^ 64 of them, and then begins at 0 again. -/
structure Connection where
  link : Nat
  cipherKey : Option CipherKey
  requests : Nat
  token : Token
  keepalive : Option Token
  deriving DecidableEq, Repr

/-- What is done to open a connection. -/
structure Dial where
  endpoint : String
  url : String
  headers : List (String × String)
  deriving DecidableEq, Repr

/-- How a dial turns out, and after how many milliseconds. -/
structure DialPlan where
  delay : Nat
  refusal : Option TransportError
  deriving DecidableEq, Repr

/-- What a listener cannot know of: how its dials turn out, and what the wall clock shows, in milliseconds,
at each time of the steady clock. -/
structure Surroundings where
  dial : Nat → Dial → DialPlan
  wallClock : Nat → Int

namespace Listener

/-! The tasks of a listener, with what each is about to do. -/

/-- Connecting: choosing the endpoint, waiting for the dial, holding the new connection, looking whether that
was in time, then announcing it or giving it up. -/
inductive Dialing
  | select
  | waiting (plan : DialPlan) (endpoint : String) (due : Nat)
  | opened (link : Nat) (endpoint : String)
  | installed (link : Nat) (endpoint : String)
  | announcing (link : Nat) (endpoint : String)
  | abandoning (link : Nat) (stage : Transport.Closing)
  | finished (result : Except ListenerError Nat)
  deriving Repr

/-- What the receiving loop looks at next; it waits when none has anything. -/
inductive Poll
  | cancelled
  | messages
  | errors
  | closure
  | waiting
  deriving DecidableEq, Repr

/-- The last steps of a chain. -/
inductive Finish
  | enter
  | announce
  | closeStreams
  | cancel
  deriving DecidableEq, Repr

/-- A chain of connections. It receives, handles a payload, publishes what follows from it, and starts to
ping; closes a connection that another one has taken over, or all, when it is cancelled. It drops a closed
connection, says so, and decides whether to try again; then it waits, dials, and reports a failure, or
finishes. -/
inductive Chain
  | receiving (link : Nat) (poll : Poll)
  | handling (link : Nat) (payload : Bytes)
  | publishing (link : Nat) (events : List Event) (ping : Option (Nat × Token))
  | yielding (link : Nat) (stage : Transport.Closing)
  | stopping (link : Nat) (stage : Transport.Closing)
  | confirming (link : Nat) (deadline : Nat)
  | dropping (info : CloseInfo)
  | announcing (info : CloseInfo)
  | deciding (info : CloseInfo)
  | exhausted (info : CloseInfo) (e : RotationError)
  | sleeping (info : CloseInfo) (due : Nat)
  | dialing (info : CloseInfo) (d : Dialing)
  | complaining (e : ListenerError)
  | finishing (info : CloseInfo) (stage : Finish)
  | done
  deriving Repr

/-- A call that starts the listener. -/
inductive Starting
  | check
  | claim
  | reopenTracker
  | reopenStreams
  | dialing (d : Dialing)
  | failing (e : ListenerError)
  | spawning (link : Nat)
  | finished (result : Except ListenerError Unit)
  deriving Repr

/-- A call that stops the listener. -/
inductive Stopping
  | look
  | cancel (parent : Option Token) (link : Option Nat)
  | closing (link : Nat) (stage : Transport.Closing)
  | seal
  | join
  | waiting (since : Nat)
  | finished
  deriving DecidableEq, Repr

/-- A task that pings, at once and then at every interval. -/
inductive Pinging
  | starting
  | waiting (next : Nat)
  | done
  deriving DecidableEq, Repr

inductive Work
  | start (token : Token) (retryOnClose : Bool) (stage : Starting)
  | stop (stage : Stopping)
  | chain (parent : Token) (stage : Chain)
  | keepalive (link : Nat) (token : Token) (stage : Pinging)
  deriving Repr

end Listener

/-- `parent` is the token of the last chain. `history` is all that was ever published, whether or not it is
still in a stream. `links` are all transports made so far, in the order of the dials that made them; those
still to come meet `fault`. -/
structure Listener where
  session : Session
  phase : Phase
  connection : Option Connection
  retry : RetryPolicy
  rotation : Rotation
  parent : Option Token
  retryOnClose : Bool
  events : Events
  history : List Event
  tracker : Tracker
  tokens : Cancellation
  links : List Transport
  fault : Option IoFault
  dials : List Dial
  work : List Listener.Work
  now : Nat
  deriving Repr

namespace Listener

def create (session : Session) : Listener where
  session
  phase := .idle
  connection := none
  retry := .ofSettings session.settings
  rotation := .start session.endpoints session.settings.rotateCodes
  parent := none
  retryOnClose := true
  events := .empty Events.defaultCapacity
  history := []
  tracker := .start
  tokens := .start
  links := []
  fault := none
  dials := []
  work := []
  now := 0

variable (l : Listener)

def publish (e : Event) : Listener :=
  { l with events := l.events.publish e, history := l.history ++ [e] }

def isCancelled (t : Token) : Bool := l.tokens.isCancelled t

def cancel (t : Token) : Listener := { l with tokens := l.tokens.cancel t }

def setLink (n : Nat) (t : Transport) : Listener := { l with links := l.links.set n t }

/-- Nobody takes any more what comes from a connection. -/
def stopListening (link : Nat) : Listener :=
  { l with links := l.links.modify link Transport.stopListening }

/-- One step of closing a connection. -/
def stepClosing (link : Nat) (info : CloseInfo) (stage : Transport.Closing) :
    Option (Transport.Closing × Listener) := do
  let (stage, t) ← Transport.stepClosing l.now info stage (← l.links[link]?)
  some (stage, l.setLink link t)

end Listener

end ChatWire
