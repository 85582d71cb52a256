import ChatWire.Task.Schedule
import ChatWire.Transport.Tasks

/-! A connection together with those who write to it and close it, the peer, and a clock. Every move is one
step of one of them, so that the reachable states are those of all interleavings. -/

namespace ChatWire

namespace Transport

/-- Someone who writes has been turned away or not, then has an answer. -/
inductive Writing
  | check
  | enqueue
  | finished (result : Except TransportError Unit)
  deriving Repr

inductive Call
  | write (type : FrameType) (payload : Bytes) (stage : Writing)
  | close (info : CloseInfo) (stage : Closing)
  deriving Repr

structure Exchange where
  transport : Transport
  calls : List Call
  now : Nat
  deriving Repr

namespace Exchange

inductive Move
  | reader (c : Choice)
  | writer (c : Choice)
  | call (n : Nat)
  | begin (c : Call)
  | takeMessage
  | takeError
  | stopListening
  | peerSend (f : WireFrame)
  | peerVanish
  | fault (f : Option IoFault)
  | wait (ms : Nat)
  deriving Repr

def opened : Exchange := ⟨.opened none, [], 0⟩

def stepCall (now : Nat) : Call → Transport → Option (Call × Transport)
  | .write type b .check, t =>
    some (.write type b (if t.isClosed then .finished (.error .closed) else .enqueue), t)
  | .write type b .enqueue, t =>
    let (r, t) := t.accept type b
    some (.write type b (.finished r), t)
  | .write _ _ (.finished _), _ => none
  | .close info stage, t => (stepClosing now info stage t).map fun (stage, t) => (.close info stage, t)

def step (m : Move) (s : Exchange) : Option Exchange :=
  match m with
  | .reader c => (s.transport.stepReader c).map fun t => { s with transport := t }
  | .writer c => (s.transport.stepWriter s.now c).map fun t => { s with transport := t }
  | .call n => do
    let (c, t) ← stepCall s.now (← s.calls[n]?) s.transport
    some { s with transport := t, calls := s.calls.set n c }
  | .begin c => some { s with calls := s.calls ++ [c] }
  | .takeMessage =>
    match s.transport.inbound with
    | _ :: rest => some { s with transport := { s.transport with inbound := rest } }
    | [] => none
  | .takeError =>
    match s.transport.errors with
    | _ :: rest => some { s with transport := { s.transport with errors := rest } }
    | [] => none
  | .stopListening => some { s with transport := s.transport.stopListening }
  | .peerSend f => some { s with transport := s.transport.peerSend f }
  | .peerVanish => some { s with transport := s.transport.peerVanish }
  | .fault f => some { s with transport := s.transport.setFault f }
  | .wait ms => some { s with now := s.now + ms }

/-- The moves that are made without anybody asking for them, by tasks that are awake. -/
def moves (s : Exchange) : List Move :=
  (.reader .heed :: if s.transport.readerIsAwake then [.reader .proceed] else [])
    ++ (.writer .heed :: if s.transport.writerIsAwake s.now then [.writer .proceed] else [])
    ++ (List.range s.calls.length).map .call

def settle (fuel : Nat) (s : Exchange) : Exchange := Schedule.settle moves step fuel s

def Call.deadline? : Call → Option Nat
  | .close _ stage => stage.deadline?
  | _ => none

/-- Times that something waits for. -/
def deadlines (s : Exchange) : List Nat :=
  s.transport.writer.deadline?.toList ++ s.calls.filterMap Call.deadline?

def clock (fuel : Nat) : Clock Exchange where
  settle := settle fuel
  next? s := Clock.first? s.now s.deadlines
  set now s := { s with now }

end Exchange

end Transport

end ChatWire
