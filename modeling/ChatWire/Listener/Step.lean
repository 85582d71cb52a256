import ChatWire.Listener.Calls
import ChatWire.Task.Schedule

/-! The moves of a listener and of those around it. A move is one step of one task, one call, or one thing that
happens to a connection; the reachable states are those of all interleavings. -/

namespace ChatWire.Listener

inductive Move
  | reader (link : Nat) (c : Choice)
  | writer (link : Nat) (c : Choice)
  | work (n : Nat) (c : Choice)
  | start (token : Token) (retryOnClose : Bool)
  | stop
  | cancel (token : Token)
  | send (h : Header) (data : Fields) (stamp : Bool)
  | peerSend (link : Nat) (f : WireFrame)
  | peerVanish (link : Nat)
  | fault (f : Option IoFault)
  | wait (ms : Nat)
  deriving Repr

/-- One step of a task. Only the tasks that wait for two things at once have a choice. -/
def stepWork (world : Surroundings) (c : Choice) (w : Work) (l : Listener) : Option (Work × Listener) :=
  match w, c with
  | .start token retryOnClose stage, .proceed =>
    (l.stepStart world token retryOnClose stage).map fun (s, l) => (.start token retryOnClose s, l)
  | .stop stage, .proceed => (l.stepStop stage).map fun (s, l) => (.stop s, l)
  | .chain parent stage, c => (l.stepChain world parent c stage).map fun (s, l) => (.chain parent s, l)
  | .keepalive link token stage, c =>
    (l.stepPing world link token c stage).map fun (s, l) => (.keepalive link token s, l)
  | _, .heed => none

def step (world : Surroundings) (m : Move) (l : Listener) : Option Listener :=
  match m with
  | .reader n c => do some (l.setLink n (← (← l.links[n]?).stepReader c))
  | .writer n c => do some (l.setLink n (← (← l.links[n]?).stepWriter l.now c))
  | .work n c => do
    let (w, l) ← l.stepWork world c (← l.work[n]?)
    some { l with work := l.work.set n w }
  | .start token retryOnClose => some { l with work := l.work ++ [.start token retryOnClose .check] }
  | .stop => some { l with work := l.work ++ [.stop .look] }
  | .cancel token => some (l.cancel token)
  | .send h data stamp => some (l.send h data stamp).2
  | .peerSend n f => some { l with links := l.links.modify n (Transport.peerSend f) }
  | .peerVanish n => some { l with links := l.links.modify n Transport.peerVanish }
  | .fault f => some { l with fault := f, links := l.links.map (Transport.setFault f) }
  | .wait ms => some { l with now := l.now + ms }

/-- The moves that are made without anybody asking for them, by tasks that are awake. -/
def moves (l : Listener) : List Move :=
  l.links.zipIdx.flatMap (fun (t, n) =>
    (.reader n .heed :: if t.readerIsAwake then [.reader n .proceed] else [])
      ++ .writer n .heed :: if t.writerIsAwake l.now then [.writer n .proceed] else [])
    ++ (List.range l.work.length).flatMap fun n => [.work n .heed, .work n .proceed]

def settle (world : Surroundings) (fuel : Nat) (l : Listener) : Listener :=
  Schedule.settle moves (step world) fuel l

def Stopping.deadline? : Stopping → Option Nat
  | .closing _ stage => stage.deadline?
  | _ => none

def Work.deadline? : Work → Option Nat
  | .start _ _ (.dialing d) => d.deadline?
  | .start _ _ _ => none
  | .stop stage => stage.deadline?
  | .chain _ stage => stage.deadline?
  | .keepalive _ _ (.waiting next) => some next
  | .keepalive _ _ _ => none

/-- Times that something waits for. -/
def deadlines (l : Listener) : List Nat :=
  l.links.filterMap (fun t => t.writer.deadline?) ++ l.work.filterMap Work.deadline?

def clock (world : Surroundings) (fuel : Nat) : Clock Listener where
  settle := settle world fuel
  next? l := Clock.first? l.now l.deadlines
  set now l := { l with now }

end ChatWire.Listener
