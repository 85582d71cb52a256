import ChatWire.Socket.Basic

/-! A connection: a socket with queues on both sides. One task reads from the socket and one writes to it.
That the connection has closed is reported once, by whichever cause comes first. -/

namespace ChatWire

/-- Of two branches that a task waits for, heeding a cancellation and going on, the one that is taken. -/
inductive Choice
  | heed
  | proceed
  deriving DecidableEq, Repr

/-- The reading task waits for a frame, hands on a payload, is about to report the end, is about to cancel,
or has finished. -/
inductive Reader
  | reading
  | delivering (payload : Bytes)
  | ending (info : CloseInfo)
  | reported
  | done
  deriving DecidableEq, Repr

/-- The writing task looks for a request to close, for a cancellation, and for a frame to send, in this
order, and waits when there is none of them. It sends a frame or waits until the frame is out; it reports a
fatal fault and cancels; it sends a close frame, for as long as the deadline allows; it says goodbye, for as
long as the deadline allows. -/
inductive Writer
  | atRequest
  | atCancelled
  | atQueue
  | waiting
  | sending (f : WireFrame)
  | flushing
  | failing (info : CloseInfo)
  | failed
  | closing (info : CloseInfo)
  | flushingClose (deadline : Nat)
  | leaving
  | flushingLeave (deadline : Nat)
  | done
  deriving DecidableEq, Repr

inductive FrameType
  | binary
  | text
  deriving DecidableEq, Repr

/-- `inbound` and `errors` wait to be taken by somebody who is `listening`. `request` asks the writing task to
close, `closure` is the cause of the closing that was reported, and `joined` says that somebody waits for
the writing task to finish. -/
structure Transport where
  socket : Socket
  outbound : List WireFrame
  inbound : List Bytes
  errors : List TransportError
  listening : Bool
  request : Option CloseInfo
  closure : Option CloseInfo
  cancelled : Bool
  joined : Bool
  reader : Reader
  writer : Writer
  deriving DecidableEq, Repr

namespace Transport

def outboundCapacity : Nat := 256
def inboundCapacity : Nat := 256

/-- milliseconds that a close frame is given to go out -/
def flushTimeout : Nat := 2000

def opened (fault : Option IoFault) : Transport :=
  { socket := .opened fault, outbound := [], inbound := [], errors := [], listening := true
    request := none, closure := none, cancelled := false, joined := false
    reader := .reading, writer := .atRequest }

/-- Reports why the connection closed, unless that has been done. -/
def fire (info : CloseInfo) (t : Transport) : Transport :=
  match t.closure with
  | none => { t with closure := some info }
  | some _ => t

def cancel (t : Transport) : Transport := { t with cancelled := true }

def isClosed (t : Transport) : Bool := t.closure.isSome || t.cancelled

theorem closure_fire (info : CloseInfo) (t : Transport) :
    (t.fire info).closure = some (t.closure.getD info) := by
  unfold fire
  cases h : t.closure <;> simp [h]

theorem isClosed_fire (info : CloseInfo) (t : Transport) : (t.fire info).isClosed := by
  simp [isClosed, closure_fire]

theorem isClosed_cancel (t : Transport) : t.cancel.isClosed := by simp [isClosed, cancel]

/-- Only what is UTF-8 goes out as text. -/
def outgoing : FrameType → Bytes → Except TransportError WireFrame
  | .binary, b => .ok (.binary b)
  | .text, b =>
    match Text.ofBytes? b with
    | some s => .ok (.text s)
    | none => .error .invalidText

/-- Puts a frame into the queue as long as there is room and somebody to take it. -/
def enqueue (f : WireFrame) (t : Transport) : Except TransportError Unit × Transport :=
  if t.writer = .done then (.error .closed, t)
  else if t.outbound.length < outboundCapacity then
    (.ok (), { t with outbound := t.outbound ++ [f] })
  else (.error .queueFull, t)

/-- What comes of a write that was not turned away because the connection has closed. -/
def accept (type : FrameType) (b : Bytes) (t : Transport) : Except TransportError Unit × Transport :=
  match outgoing type b with
  | .ok f => t.enqueue f
  | .error e => (.error e, t)

def write (type : FrameType) (b : Bytes) (t : Transport) : Except TransportError Unit × Transport :=
  if t.isClosed then (.error .closed, t) else t.accept type b

theorem write_of_isClosed {t : Transport} (h : t.isClosed) (type : FrameType) (b : Bytes) :
    t.write type b = (.error .closed, t) := by simp [write, h]

theorem enqueue_error {t t' : Transport} {f : WireFrame} {e : TransportError}
    (h : t.enqueue f = (.error e, t')) : t' = t := by
  unfold enqueue at h
  split at h
  · simp_all
  · split at h <;> simp_all

theorem accept_error {t t' : Transport} {type : FrameType} {b : Bytes} {e : TransportError}
    (h : t.accept type b = (.error e, t')) : t' = t := by
  unfold accept at h
  split at h
  · exact enqueue_error h
  · simp_all

/-- A write that fails changes nothing. -/
theorem write_error {t t' : Transport} {type : FrameType} {b : Bytes} {e : TransportError}
    (h : t.write type b = (.error e, t')) : t' = t := by
  unfold write at h
  split at h
  · simp_all
  · exact accept_error h

/-- Nobody takes what is received any more. -/
def stopListening (t : Transport) : Transport := { t with listening := false }

/-! The peer, which is gone once both tasks have finished. -/

def isOver (t : Transport) : Bool := t.reader = .done && t.writer = .done

def peerSend (f : WireFrame) (t : Transport) : Transport :=
  if t.isOver then t else { t with socket := t.socket.peerSend f }

def peerVanish (t : Transport) : Transport := { t with socket := t.socket.peerVanish }

def setFault (fault : Option IoFault) (t : Transport) : Transport :=
  { t with socket := { t.socket with fault } }

end Transport

end ChatWire
