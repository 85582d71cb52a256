import ChatWire.Json.Printer
import ChatWire.Listener.Events

/-! Printing what a listener makes public. Whoever prints takes the oldest event of any stream that has one,
until the event of the closing comes. -/

namespace ChatWire.CommandLine

/-- A line of output, or of complaint. -/
inductive Line
  | out (text : String)
  | err (text : String)
  deriving DecidableEq, Repr

inductive Stream
  | connected
  | disconnected
  | message
  | undo
  | oldMessages
  | cipherKey
  | error
  | closed
  deriving DecidableEq, Repr

def Stream.all : List Stream :=
  [.connected, .disconnected, .message, .undo, .oldMessages, .cipherKey, .error, .closed]

/-- The oldest event of a stream, and all streams with `put` doing away with it. -/
def take {α : Type} (m : Mailbox α) (event : α → Event) (put : Mailbox α → Events) :
    Option (Event × Events) :=
  match m.take? with
  | (some a, m) => some (event a, put m)
  | (none, _) => none

/-- The oldest event of a stream. -/
def takeFrom (e : Events) : Stream → Option (Event × Events)
  | .connected => take e.connected .connected fun m => { e with connected := m }
  | .disconnected => take e.disconnected .disconnected fun m => { e with disconnected := m }
  | .message => take e.message .message fun m => { e with message := m }
  | .undo => take e.undo .undo fun m => { e with undo := m }
  | .oldMessages => take e.oldMessages .oldMessages fun m => { e with oldMessages := m }
  | .cipherKey => take e.cipherKey .cipherKey fun m => { e with cipherKey := m }
  | .error => take e.error .error fun m => { e with error := m }
  | .closed => take e.closed .closed fun m => { e with closed := m }

def threadName : Thread → String
  | .user => "User"
  | .group => "Group"

def line : Event → Line
  | .connected endpoint => .out ("connected: " ++ endpoint)
  | .disconnected info => .out ("disconnected: " ++ info.text)
  | .message m =>
    .out ("[" ++ threadName m.thread ++ " " ++ m.threadId ++ "] " ++ m.data.dName ++ ": "
      ++ m.data.content.render)
  | .undo u =>
    .out ("[" ++ threadName u.thread ++ " " ++ u.threadId ++ "] recalled " ++ u.undo.globalMsgId)
  | .oldMessages o =>
    .out (toString o.messages.length ++ " old " ++ threadName o.thread ++ " messages")
  | .cipherKey _ => .out "cipher key received"
  | .error e => .err ("error: " ++ e.message SocketError.message)
  | .closed info => .out ("closed: " ++ info.text)

def isClosing : Event → Bool
  | .closed _ => true
  | _ => false

/-- What is still in the streams, what was printed, and whether that is all. -/
structure Printing where
  events : Events
  printed : List Event
  finished : Bool
  deriving Repr

namespace Printing

/-- Prints the oldest event of a stream that has one. -/
def print (s : Stream) (p : Printing) : Option Printing :=
  if p.finished then none
  else (takeFrom p.events s).map fun (e, events) => ⟨events, p.printed ++ [e], isClosing e⟩

/-- Gives up when there is nothing more to come. -/
def quit (p : Printing) : Option Printing :=
  if !p.finished && p.events.isClosed && Stream.all.all fun s => (takeFrom p.events s).isNone then
    some { p with finished := true }
  else none

/-- A choice among the streams, or giving up. -/
inductive Move
  | print (s : Stream)
  | quit
  deriving DecidableEq, Repr

def step : Move → Printing → Option Printing
  | .print s, p => p.print s
  | .quit, p => p.quit

end Printing

end ChatWire.CommandLine
