/-! What goes wrong with a socket, and with a connection made of one. -/

namespace ChatWire

/-- The kinds of faults of the system that make a difference; `wouldBlock` asks for patience. -/
inductive IoKind
  | brokenPipe
  | connectionReset
  | connectionAborted
  | notConnected
  | unexpectedEof
  | wouldBlock
  | other
  deriving DecidableEq, Repr

/-- A fault of the system: what is said of it, and what the system itself says. -/
structure IoFault where
  kind : IoKind
  wording : String
  cause : Option String
  deriving DecidableEq, Repr

namespace IoFault

/-- a fault about whose wording nothing is known -/
def ofKind (kind : IoKind) : IoFault := ⟨kind, "<io>", none⟩

def ofSystem (kind : IoKind) (text : String) : IoFault := ⟨kind, "IO error: " ++ text, some text⟩

end IoFault

inductive SocketError
  | io (fault : IoFault)
  | connectionClosed
  | alreadyClosed
  | resetWithoutClosing
  | sendAfterClosing
  | receivedAfterClosing
  | controlFrameTooBig
  | malformedUri
  | noHost
  deriving DecidableEq, Repr

namespace SocketError

def message : SocketError → String
  | io f => f.wording
  | connectionClosed => "Connection closed normally"
  | alreadyClosed => "Trying to work with closed connection"
  | resetWithoutClosing => "WebSocket protocol error: Connection reset without closing handshake"
  | sendAfterClosing => "WebSocket protocol error: Sending after closing is not allowed"
  | receivedAfterClosing => "WebSocket protocol error: Remote sent after having closed"
  | controlFrameTooBig =>
    "WebSocket protocol error: Control frame too big (payload must be 125 bytes or less)"
  | malformedUri => "HTTP format error: invalid uri"
  | noHost => "URL error: No host name in the URL"

/-- After a fatal error nothing more can be sent. -/
def isFatal : SocketError → Bool
  | io f =>
    [IoKind.brokenPipe, .connectionReset, .connectionAborted, .notConnected, .unexpectedEof].contains f.kind
  | connectionClosed | alreadyClosed | resetWithoutClosing | sendAfterClosing => true
  | receivedAfterClosing | controlFrameTooBig | malformedUri | noHost => false

/-- An error and what caused it, each in words. -/
def causes : SocketError → List String
  | io f => f.wording :: f.cause.toList
  | e => [e.message]

end SocketError

inductive TransportError
  | invalidUrl (url : String) (error : SocketError)
  | invalidHeader (name reason : String)
  | dial (url : String) (error : SocketError)
  | queueFull
  | closed
  | invalidText
  | write (error : SocketError)
  deriving DecidableEq, Repr

/-- The text of an error, in which `say` words those of sockets. -/
def TransportError.message (say : SocketError → String) : TransportError → String
  | invalidUrl url e => "invalid websocket url " ++ url ++ ": " ++ say e
  | invalidHeader name reason => "invalid header " ++ name ++ ": " ++ reason
  | dial url e => "dial " ++ url ++ " failed: " ++ say e
  | queueFull => "outbound queue full"
  | closed => "transport closed"
  | invalidText => "text frame is not valid UTF-8"
  | write e => "write failed: " ++ say e

def TransportError.causes (e : TransportError) : List String :=
  e.message SocketError.message ::
    match e with
    | invalidUrl _ e | dial _ e | write e => e.causes
    | _ => []

end ChatWire
