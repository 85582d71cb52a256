import ChatWire.Envelope.Decode
import ChatWire.Retry.Rotation
import ChatWire.Session.Basic
import ChatWire.Socket.Error

/-! What a listener reports. -/

namespace ChatWire

/-- what was being done when an error arose -/
inductive Operation
  | selectEndpoint
  | handshakeUrl
  | dial
  | send
  | write
  | frameHeader
  | envelope
  | cipherKey
  | messageBatch
  | oldMessages
  deriving DecidableEq, Repr

def Operation.name : Operation → String
  | selectEndpoint => "select endpoint"
  | handshakeUrl => "build handshake url"
  | dial => "dial"
  | send => "send"
  | write => "write"
  | frameHeader => "frame header"
  | envelope => "envelope"
  | cipherKey => "cipher key"
  | messageBatch => "message batch"
  | oldMessages => "old messages"

inductive ListenerError
  | alreadyConnected
  | cancelled
  | notConnected
  | session (op : Operation) (error : SessionError)
  | transport (op : Operation) (error : TransportError)
  | decode (op : Operation) (error : DecodeError)
  | retry (error : RotationError)
  | server (code : Int) (message : String)
  deriving DecidableEq, Repr

/-- The text of an error, in which `say` words those of sockets. -/
def ListenerError.message (say : SocketError → String) : ListenerError → String
  | alreadyConnected => "listener is already connected"
  | cancelled => "listener cancelled"
  | notConnected => "listener is not connected"
  | session op e => op.name ++ ": " ++ e.message
  | transport op e => op.name ++ ": " ++ e.message say
  | decode op e => op.name ++ ": " ++ e.message
  | retry e => "reconnect: " ++ e.message
  | server code message => "server error " ++ toString code ++ ": " ++ message

/-- An error and what caused it, each in words. -/
def ListenerError.causes (e : ListenerError) : List String :=
  e.message SocketError.message ::
    match e with
    | session _ e => e.causes
    | transport _ e => e.causes
    | decode _ e => [e.message]
    | retry e => [e.message]
    | _ => []

end ChatWire
