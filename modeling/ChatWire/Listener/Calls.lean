import ChatWire.Listener.Chain

/-! Starting and stopping a listener, sending on its connection, and the task that pings. -/

namespace ChatWire.Listener

/-! Starting. -/

/-- Begins a chain with full budgets at the first endpoint, unless one is running. -/
def claim (token : Token) (retryOnClose : Bool) (l : Listener) : Starting × Listener :=
  if l.phase = .idle ∨ l.phase = .closed then
    (.reopenTracker,
      { l with
        parent := some token, retryOnClose, retry := l.retry.reset, rotation := l.rotation.reset
        phase := .connecting })
  else (.finished (.error .alreadyConnected), l)

def stepStart (world : Surroundings) (token : Token) (retryOnClose : Bool) (stage : Starting)
    (l : Listener) : Option (Starting × Listener) :=
  match stage with
  | .check => some (if l.isCancelled token then .finished (.error .cancelled) else .claim, l)
  | .claim => some (l.claim token retryOnClose)
  | .reopenTracker => some (.reopenStreams, { l with tracker := l.tracker.reopen })
  | .reopenStreams => some (.dialing .select, { l with events := l.events.reopen })
  | .dialing (.finished (.ok link)) => some (.spawning link, l)
  | .dialing (.finished (.error e)) => some (.failing e, l)
  | .dialing d => do
    let (d, l) ← l.stepDialing world token d
    some (.dialing d, l)
  | .failing e => some (.finished (.error e), { l with phase := .closed })
  | .spawning link => some (.finished (.ok ()), l.spawn (.chain token (.receiving link .cancelled)))
  | .finished _ => none

/-! Stopping. -/

def stepStop (stage : Stopping) (l : Listener) : Option (Stopping × Listener) :=
  match stage with
  | .look => some (.cancel l.parent (l.connection.map Connection.link), l)
  | .cancel parent link =>
    some
      (match link with
        | some n => .closing n .request
        | none => .seal,
       match parent with
        | some t => l.cancel t
        | none => l)
  | .closing _ .done => some (.seal, l)
  | .closing link stage => do
    let (stage, l) ← l.stepClosing link manualClose stage
    some (.closing link stage, l)
  | .seal => some (.join, { l with tracker := l.tracker.close })
  | .join => some (.waiting l.tracker.emptied, l)
  | .waiting since => if l.tracker.isReleased since then some (.finished, l) else none
  | .finished => none

/-! Sending. -/

/-- The body of a request, as a frame. -/
def frame (h : Header) (data : Fields) : Frame := ⟨h, Text.toBytes (Json.obj data).render⟩

def requestField : String := "req_id"

def requestId (n : Nat) : Json := .str ("req_" ++ toString n)

/-- Sends on the connection that is held. A stamped request takes the next number, whether or not it can
be written. -/
def send (h : Header) (data : Fields) (stamp : Bool) (l : Listener) :
    Except ListenerError Unit × Listener :=
  if l.parent.all l.isCancelled then (.error .cancelled, l)
  else
    match l.connection with
    | none => (.error .notConnected, l)
    | some c =>
      let (data, c) :=
        if stamp then
          (Fields.insert requestField (requestId c.requests) data, { c with requests := c.requests + 1 })
        else (data, c)
      let l := { l with connection := some c }
      match l.links[c.link]? with
      | none => (.error .notConnected, l)
      | some t =>
        match t.write .binary (frame h data).encode with
        | (.ok (), t) => (.ok (), l.setLink c.link t)
        | (.error e, t) => (.error (.transport .send e), l.setLink c.link t)

/-- Asks for what came before the item `last`, or for the latest. -/
def backfillBody (last : Option String) : Fields :=
  Fields.ofList [("first", .bool true), ("lastId", .ofOption .str last), ("preIds", .arr [])]

def requestOldMessages (t : Thread) (last : Option String) (l : Listener) :
    Except ListenerError Unit × Listener :=
  l.send (.oldMessages t) (backfillBody last) true

def requestOldReactions (t : Thread) (last : Option String) (l : Listener) :
    Except ListenerError Unit × Listener :=
  l.send (.oldReactions t) (backfillBody last) true

/-! Pinging. -/

def pingFrame (time : Int) : Frame := frame .ping [("eventId", .int time)]

/-- milliseconds by which a ping may be late without putting off those after it -/
def pingSlack : Nat := 5

/-- When the ping after the one due at `due` is due. -/
def nextPing (now due interval : Nat) : Nat :=
  if due + pingSlack < now then now + interval else due + interval

def stepPing (world : Surroundings) (link : Nat) (token : Token) (choice : Choice) (stage : Pinging)
    (l : Listener) : Option (Pinging × Listener) :=
  match stage, choice with
  | .starting, .proceed => some (.waiting l.now, l)
  | .waiting _, .heed =>
    if l.isCancelled token then some (.done, { l with tracker := l.tracker.exit }) else none
  | .waiting due, .proceed =>
    if l.now < due then none
    else do
      let (r, t) := (← l.links[link]?).write .binary (pingFrame (world.wallClock l.now)).encode
      match r with
      | .error .closed => some (.done, { l with tracker := l.tracker.exit })
      | _ => some (.waiting (nextPing l.now due l.session.settings.pingInterval), l.setLink link t)
  | _, _ => none

end ChatWire.Listener
