import ChatWire.Bytes.Basic
import ChatWire.Socket.Close
import ChatWire.Socket.Error

/-! One end of a socket, with the peer at the other. What is written is buffered first and goes out when
it is flushed; pings and closes of the peer are answered with the next flush. -/

namespace ChatWire

inductive WireFrame
  | text (s : String)
  | binary (b : Bytes)
  | ping (b : Bytes)
  | pong (b : Bytes)
  | close (info : Option CloseInfo)
  deriving DecidableEq, Repr

namespace WireFrame

def maxControlSize : Nat := 125

/-- A control frame that is too long to be accepted. -/
def isTooBig : WireFrame → Bool
  | ping b | pong b => maxControlSize < b.length
  | close (some c) => maxControlSize < 2 + (Text.toBytes c.reason).length
  | _ => false

end WireFrame

/-- How far the closing has gone: not at all, begun at this end, begun by the peer, done by both; or the
connection has broken off. -/
inductive SocketState
  | active
  | closedHere
  | closedThere
  | closedBoth
  | terminated
  deriving DecidableEq, Repr

/-- The peer may still send, has sent its last, or has dropped the connection. -/
inductive Peer
  | active
  | closing
  | gone
  deriving DecidableEq, Repr

/-- `buffered` has been accepted and not gone out, `reply` answers the peer, and `unflushed` says that an
answer is in the buffer. Every write meets `fault`. `arrived` has come from the peer and not been read,
`ended` says that there is no more to read; `delivered` has reached the peer. -/
structure Socket where
  state : SocketState
  buffered : List WireFrame
  reply : Option WireFrame
  unflushed : Bool
  fault : Option IoFault
  arrived : List WireFrame
  ended : Bool
  peer : Peer
  delivered : List WireFrame
  deriving DecidableEq, Repr

namespace Socket

/-- A connection just made. -/
def opened (fault : Option IoFault) : Socket :=
  { state := .active, buffered := [], reply := none, unflushed := false, fault, arrived := []
    ended := false, peer := .active, delivered := [] }

/-! The peer. -/

def peerSend (f : WireFrame) (s : Socket) : Socket :=
  match s.peer with
  | .active =>
    { s with
      arrived := s.arrived ++ [f]
      peer := match f with
        | .close _ => .closing
        | _ => .active }
  | _ => s

def peerVanish (s : Socket) : Socket := { s with peer := .gone }

/-- A frame reaches the peer, which answers pings and closes, and drops the connection at an answered close
and at what it cannot accept. -/
def deliver (s : Socket) (f : WireFrame) : Socket :=
  if s.peer = .gone then s
  else if f.isTooBig then s.peerVanish
  else
    match f with
    | .close info =>
      if s.peer = .active then
        let answer := WireFrame.close (info.map CloseInfo.permitted)
        { s with
          delivered := s.delivered ++ [answer], arrived := s.arrived ++ [answer], peer := .gone }
      else { s with delivered := s.delivered ++ [f], peer := .gone }
    | .ping b => { (s.peerSend (.pong b)) with delivered := s.delivered ++ [f] }
    | f => { s with delivered := s.delivered ++ [f] }

/-! Writing. -/

inductive Flushed
  | done
  | blocked
  | failed (error : SocketError)
  deriving DecidableEq, Repr

/-- Sends what is in the buffer. -/
def writeOut (s : Socket) : Flushed × Socket :=
  if s.buffered.isEmpty then (.done, s)
  else
    match s.fault with
    | some f => (if f.kind = .wouldBlock then .blocked else .failed (.io f), s)
    | none =>
      if s.peer = .gone then (.failed (.io (.ofKind .brokenPipe)), s)
      else (.done, { s.buffered.foldl deliver s with buffered := [] })

/-- Sends what is in the buffer and the answer to the peer. -/
def flush (s : Socket) : Flushed × Socket :=
  match { s with buffered := s.buffered ++ s.reply.toList, reply := none }.writeOut with
  | (.done, s) => (.done, { s with unflushed := false })
  | r => r

/-- After a close frame nothing can be sent. A frame whose sending fails stays in the buffer. -/
def send (f : WireFrame) (s : Socket) : Flushed × Socket :=
  match s.state with
  | .active =>
    let state := match f with
      | .close _ => .closedHere
      | _ => .active
    { s with state, buffered := s.buffered ++ [f] }.flush
  | .terminated => (.failed .alreadyClosed, s)
  | _ => (.failed .sendAfterClosing, s)

/-- Says goodbye without a status if nobody has done so yet. -/
def close (s : Socket) : Flushed × Socket :=
  if s.state = .active then
    { s with state := .closedHere, buffered := s.buffered ++ [WireFrame.close none] }.flush
  else s.flush

/-! Reading. -/

inductive Received
  | waiting
  | frame (f : WireFrame)
  | failed (error : SocketError)
  | ended
  deriving DecidableEq, Repr

/-- An answer gives way only to one that is no pong. -/
def setReply (f : WireFrame) (s : Socket) : Socket :=
  match s.reply with
  | none | some (.pong _) => { s with reply := some f }
  | _ => s

def fail (e : SocketError) (s : Socket) : Received × Socket := (.failed e, { s with ended := true })

/-- A frame of the peer is taken note of. -/
def accept (f : WireFrame) (s : Socket) : Received × Socket :=
  if s.state ≠ .active ∧ s.state ≠ .closedHere then s.fail .receivedAfterClosing
  else if f.isTooBig then s.fail .controlFrameTooBig
  else
    match f with
    | .ping b => (.frame f, if s.state = .active then s.setReply (.pong b) else s)
    | .close info =>
      if s.state = .active then
        let info := info.map CloseInfo.permitted
        (.frame (.close info), { s.setReply (.close info) with state := .closedThere })
      else (.frame f, { s with state := .closedBoth })
    | f => (.frame f, s)

/-- The next frame of the peer. A connection that breaks off must have been closed before. -/
def take (s : Socket) : Received × Socket :=
  match s.arrived with
  | f :: rest => { s with arrived := rest }.accept f
  | [] =>
    if s.peer = .gone then
      let cut := { s with state := .terminated, ended := true }
      if s.state = .closedThere ∨ s.state = .closedBoth then (.ended, cut)
      else (.failed .resetWithoutClosing, cut)
    else (.waiting, s)

/-- Answers the peer first. -/
def receive (s : Socket) : Received × Socket :=
  if s.ended ∨ s.state = .terminated then (.ended, { s with ended := true })
  else if s.reply.isSome ∨ s.unflushed then
    match s.flush with
    | (.done, s) => s.take
    | (.blocked, s) => { s with unflushed := true }.take
    | (.failed e, s) => s.fail e
  else s.take

end Socket

end ChatWire
