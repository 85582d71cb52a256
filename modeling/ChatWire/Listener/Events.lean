import ChatWire.Listener.Error
import ChatWire.Mailbox.Basic
import ChatWire.Message.Item
import ChatWire.Socket.Close

/-! The public streams of a listener. -/

namespace ChatWire

/-- Something that a listener makes public. -/
inductive Event
  | connected (endpoint : String)
  | disconnected (info : CloseInfo)
  | closed (info : CloseInfo)
  | error (e : ListenerError)
  | message (m : Message)
  | undo (u : Undo)
  | cipherKey (key : CipherKey)
  | oldMessages (o : OldMessages)
  deriving Repr

/-- One stream for every kind of event. -/
structure Events where
  connected : Mailbox String
  disconnected : Mailbox CloseInfo
  closed : Mailbox CloseInfo
  error : Mailbox ListenerError
  message : Mailbox Message
  undo : Mailbox Undo
  cipherKey : Mailbox CipherKey
  oldMessages : Mailbox OldMessages
  deriving Repr

namespace Events

def defaultCapacity : Nat := 64

def empty (capacity : Nat) : Events :=
  ⟨.empty capacity, .empty capacity, .empty capacity, .empty capacity, .empty capacity, .empty capacity,
    .empty capacity, .empty capacity⟩

def publish (e : Event) (s : Events) : Events :=
  match e with
  | .connected x => { s with connected := (s.connected.publish x).2 }
  | .disconnected x => { s with disconnected := (s.disconnected.publish x).2 }
  | .closed x => { s with closed := (s.closed.publish x).2 }
  | .error x => { s with error := (s.error.publish x).2 }
  | .message x => { s with message := (s.message.publish x).2 }
  | .undo x => { s with undo := (s.undo.publish x).2 }
  | .cipherKey x => { s with cipherKey := (s.cipherKey.publish x).2 }
  | .oldMessages x => { s with oldMessages := (s.oldMessages.publish x).2 }

def close (s : Events) : Events where
  connected := s.connected.close
  disconnected := s.disconnected.close
  closed := s.closed.close
  error := s.error.close
  message := s.message.close
  undo := s.undo.close
  cipherKey := s.cipherKey.close
  oldMessages := s.oldMessages.close

def reopen (s : Events) : Events where
  connected := s.connected.reopen
  disconnected := s.disconnected.reopen
  closed := s.closed.reopen
  error := s.error.reopen
  message := s.message.reopen
  undo := s.undo.reopen
  cipherKey := s.cipherKey.reopen
  oldMessages := s.oldMessages.reopen

/-- What is left once all events of all streams are taken. -/
def drained (s : Events) : Events where
  connected := s.connected.drained
  disconnected := s.disconnected.drained
  closed := s.closed.drained
  error := s.error.drained
  message := s.message.drained
  undo := s.undo.drained
  cipherKey := s.cipherKey.drained
  oldMessages := s.oldMessages.drained

/-- how many events each stream has given up, in the order of the fields -/
def dropped (s : Events) : List Nat :=
  [s.connected.dropped, s.disconnected.dropped, s.closed.dropped, s.error.dropped, s.message.dropped,
    s.undo.dropped, s.cipherKey.dropped, s.oldMessages.dropped]

/-- which streams are closed, in the order of the fields -/
def closedFlags (s : Events) : List Bool :=
  [s.connected.closed, s.disconnected.closed, s.closed.closed, s.error.closed, s.message.closed,
    s.undo.closed, s.cipherKey.closed, s.oldMessages.closed]

def isClosed (s : Events) : Bool := s.closedFlags.all id

theorem closedFlags_close (s : Events) : s.close.closedFlags = List.replicate 8 true := rfl

theorem closedFlags_reopen (s : Events) : s.reopen.closedFlags = List.replicate 8 false := rfl

end Events

end ChatWire
