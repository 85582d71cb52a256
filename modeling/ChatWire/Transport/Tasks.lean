import ChatWire.Transport.Basic

/-! The steps of the tasks of a connection, and of one who closes it. A step is `none` when the task has to
wait or has finished. -/

namespace ChatWire

namespace Transport

/-! The reading task. -/

/-- What a frame that was read is to the reading task. -/
def readFrame : WireFrame → Reader
  | .binary b => .delivering b
  | .text s => .delivering (Text.toBytes s)
  | .close info => .ending (info.getD .noStatus)
  | .ping _ | .pong _ => .reading

/-- Whether looking for a frame in vain has sent anything to the peer. -/
def hasAnswered (before after : Socket) : Bool :=
  before.reply.isSome || before.unflushed != after.unflushed

/-- Reads one frame; pings and pongs are passed over. -/
def read (t : Transport) : Option Transport :=
  match t.socket.receive with
  | (.waiting, socket) => if hasAnswered t.socket socket then some { t with socket } else none
  | (.frame f, socket) => some { t with socket, reader := readFrame f }
  | (.failed e, socket) => some { t with socket, reader := .ending (.abnormal e.message) }
  | (.ended, socket) => some { t with socket, reader := .ending (.abnormal "connection ended") }

def stepReader (c : Choice) (t : Transport) : Option Transport :=
  match t.reader, c with
  | .reading, .heed | .delivering _, .heed => if t.cancelled then some { t with reader := .done } else none
  | .reading, .proceed => t.read
  | .delivering b, .proceed =>
    if !t.listening then some { t with reader := .done }
    else if t.inbound.length < inboundCapacity then
      some { t with inbound := t.inbound ++ [b], reader := .reading }
    else none
  | .ending info, .proceed => some { t.fire info with reader := .reported }
  | .reported, .proceed => some { t.cancel with reader := .done }
  | _, _ => none

/-! The writing task. -/

/-- Errors for which there is no room are lost. -/
def reportError (e : TransportError) (t : Transport) : Transport :=
  if t.listening ∧ t.errors.length < inboundCapacity then { t with errors := t.errors ++ [e] } else t

/-- After an attempt to send. -/
def afterSend (t : Transport) : Socket.Flushed → Option Transport
  | .done => some { t with writer := .atRequest }
  | .blocked => some { t with writer := .flushing }
  | .failed e =>
    if e.isFatal then some { t with writer := .failing (.abnormal e.message) }
    else some { t.reportError (.write e) with writer := .atRequest }

/-- Something that the waiting task waits for is there. -/
def isBusy (t : Transport) : Bool := t.request.isSome || t.cancelled || !t.outbound.isEmpty

def stepWriter (now : Nat) (c : Choice) (t : Transport) : Option Transport :=
  match t.writer, c with
  | .atRequest, .proceed =>
    match t.request with
    | some info => some { t with writer := .closing info }
    | none => some { t with writer := .atCancelled }
  | .atCancelled, .proceed => some { t with writer := if t.cancelled then .leaving else .atQueue }
  | .atQueue, .proceed =>
    match t.outbound with
    | f :: rest => some { t with outbound := rest, writer := .sending f }
    | [] => some { t with writer := .waiting }
  | .waiting, .proceed => if t.isBusy then some { t with writer := .atRequest } else none
  | .sending _, .heed | .flushing, .heed =>
    if t.cancelled then some { t with writer := .leaving } else none
  | .sending f, .proceed =>
    let (r, socket) := t.socket.send f
    { t with socket }.afterSend r
  | .flushing, .proceed =>
    match t.socket.flush with
    | (.blocked, _) => none
    | (r, socket) => { t with socket }.afterSend r
  | .failing info, .proceed => some { t.fire info with writer := .failed }
  | .failed, .proceed => some { t.cancel with writer := .leaving }
  | .closing info, .proceed =>
    match t.socket.send (.close (some info)) with
    | (.blocked, socket) => some { t with socket, writer := .flushingClose (now + flushTimeout) }
    | (_, socket) => some { t with socket, writer := .leaving }
  | .flushingClose deadline, .proceed =>
    match t.socket.flush with
    | (.blocked, _) => if deadline ≤ now then some { t with writer := .leaving } else none
    | (_, socket) => some { t with socket, writer := .leaving }
  | .leaving, .proceed =>
    match t.socket.close with
    | (.blocked, socket) => some { t with socket, writer := .flushingLeave (now + flushTimeout) }
    | (_, socket) => some { t with socket, writer := .done }
  | .flushingLeave deadline, .proceed =>
    match t.socket.flush with
    | (.blocked, _) => if deadline ≤ now then some { t with writer := .done } else none
    | (_, socket) => some { t with socket, writer := .done }
  | _, _ => none

/-- Whoever closes a connection asks for a close frame, reports the cause, claims the writing task, waits for
it to finish, and cancels. -/
inductive Closing
  | request
  | report
  | join
  | waiting (deadline : Nat)
  | cancel
  | done
  deriving DecidableEq, Repr

/-- Only the first who asks is heard, and only one waits for the writing task. -/
def stepClosing (now : Nat) (info : CloseInfo) : Closing → Transport → Option (Closing × Transport)
  | .request, t => some (.report, { t with request := some (t.request.getD info) })
  | .report, t => some (.join, t.fire info)
  | .join, t =>
    if t.joined then some (.cancel, t) else some (.waiting (now + flushTimeout), { t with joined := true })
  | .waiting deadline, t =>
    if t.writer = .done ∨ deadline ≤ now then some (.cancel, t) else none
  | .cancel, t => some (.done, t.cancel)
  | .done, _ => none

def Closing.deadline? : Closing → Option Nat
  | .waiting d => some d
  | _ => none

end Transport

def Writer.deadline? : Writer → Option Nat
  | .flushingClose d | .flushingLeave d => some d
  | _ => none

/-! A task that waits for the socket is woken by what comes in, whichever way it has gone to sleep. That a blocked
socket would take writes again wakes nobody. -/

def Transport.isStirred (t : Transport) : Bool := !t.socket.arrived.isEmpty || t.socket.peer = .gone

/-- Whether the reading task is awake. -/
def Transport.readerIsAwake (t : Transport) : Bool :=
  t.reader ≠ .reading || t.socket.reply.isSome || t.isStirred

/-- Whether the writing task is awake. -/
def Transport.writerIsAwake (now : Nat) (t : Transport) : Bool :=
  match t.writer with
  | .flushing => t.isStirred
  | .flushingClose deadline | .flushingLeave deadline => t.isStirred || deadline ≤ now
  | _ => true

end ChatWire
