import ChatWire.Listener.Dialing
import ChatWire.Listener.Reaction

/-! The chain of connections: receiving, dropping what has closed, and connecting again. -/

namespace ChatWire.Listener

def manualClose : CloseInfo := ⟨CloseCode.manual, "manual close"⟩

def duplicateClose : CloseInfo := ⟨CloseCode.duplicateConnection, "duplicate connection"⟩

def redialFailed : CloseInfo := .abnormal "reconnect failed"

/-- milliseconds that a closing is given to be confirmed -/
def confirmTimeout : Nat := 5000

/-- The key of the connection that is held. -/
def cipherKey? (l : Listener) : Option CipherKey := l.connection.bind Connection.cipherKey

/-- Takes a new key; the task that pinged so far gives way to another one, if there is to be pinging. -/
def rekey (key : CipherKey) (c : Connection) (l : Listener) : Option (Nat × Token) × Listener :=
  let l := match c.keepalive with
    | some t => l.cancel t
    | none => l
  if l.session.settings.pingInterval = 0 then
    (none, { l with connection := some { c with cipherKey := some key, keepalive := none } })
  else
    let (t, tokens) := l.tokens.child c.token
    (some (c.link, t),
      { l with tokens, connection := some { c with cipherKey := some key, keepalive := some t } })

/-- A payload is handled as far as shared state is looked at; what it gives rise to is published after. -/
def handle (link : Nat) (payload : Bytes) (l : Listener) : Chain × Listener :=
  match Reaction.ofBytes payload with
  | .ignore => (.receiving link .cancelled, l)
  | .report e => (.publishing link [.error e] none, l)
  | .leave => (.yielding link .request, l)
  | .live t e =>
    (.publishing link
      (batchEvents .messageBatch (Batch.liveEvents l.session.uid l.session.selfListen t) e l.cipherKey?) none, l)
  | .backfill t e =>
    (.publishing link (batchEvents .oldMessages (Batch.backfillEvents l.session.uid t) e l.cipherKey?) none, l)
  | .rekey key =>
    match l.connection with
    | none => (.receiving link .cancelled, l)
    | some c =>
      let (ping, l) := l.rekey key c
      (.publishing link [.cipherKey key] ping, l)

/-- One look of the receiving loop. -/
def receive (parent : Token) (link : Nat) (poll : Poll) (l : Listener) : Option (Chain × Listener) := do
  let t ← l.links[link]?
  match poll with
  | .cancelled =>
    some (if l.isCancelled parent then .stopping link .request else .receiving link .messages, l)
  | .messages =>
    match t.inbound with
    | b :: rest => some (.handling link b, l.setLink link { t with inbound := rest })
    | [] => some (.receiving link .errors, l)
  | .errors =>
    match t.errors with
    | e :: rest =>
      some (.publishing link [.error (.transport .write e)] none, l.setLink link { t with errors := rest })
    | [] => some (.receiving link .closure, l)
  | .closure =>
    match t.closure with
    | some info => some (.dropping info, l.stopListening link)
    | none => some (.receiving link .waiting, l)
  | .waiting =>
    if l.isCancelled parent || !t.inbound.isEmpty || !t.errors.isEmpty || t.closure.isSome then
      some (.receiving link .cancelled, l)
    else none

/-- The connection is no longer held, and what lived by it is cancelled. -/
def drop (l : Listener) : Listener :=
  match l.connection with
  | some c => { l.cancel c.token with phase := .disconnected, connection := none }
  | none => { l with phase := .disconnected }

/-- Whether to connect again after a closing, when, and where. -/
def decide (parent : Token) (info : CloseInfo) (l : Listener) : Chain × Listener :=
  if !l.retryOnClose || l.isCancelled parent then (.finishing info .enter, l)
  else
    match l.retry.retry info.code with
    | (none, retry) => (.finishing info .enter, { l with retry })
    | (some delay, retry) =>
      let go (rotation : Rotation) : Chain × Listener :=
        (.sleeping info (l.now + delay), { l with retry, rotation, phase := .reconnecting })
      if l.rotation.rotatesOn info.code then
        match l.rotation.rotate with
        | .ok rotation => go rotation
        | .error e => (.exhausted info e, { l with retry })
      else go l.rotation

def stepFinish (parent : Token) (info : CloseInfo) (stage : Finish) (l : Listener) : Chain × Listener :=
  match stage with
  | .enter => (.finishing info .announce, { l with phase := .closed })
  | .announce => (.finishing info .closeStreams, l.publish (.closed info))
  | .closeStreams => (.finishing info .cancel, { l with events := l.events.close })
  | .cancel => (.done, { l.cancel parent with tracker := l.tracker.exit })

/-- Starts a task in the background. -/
def spawn (w : Work) (l : Listener) : Listener :=
  { l with work := l.work ++ [w], tracker := l.tracker.spawn }

def stepChain (world : Surroundings) (parent : Token) (choice : Choice) (chain : Chain) (l : Listener) :
    Option (Chain × Listener) :=
  match chain, choice with
  | .receiving link poll, .proceed => l.receive parent link poll
  | .handling link payload, .proceed => some (l.handle link payload)
  | .publishing link (e :: r) ping, .proceed => some (.publishing link r ping, l.publish e)
  | .publishing link [] (some (on, token)), .proceed =>
    some (.receiving link .cancelled, l.spawn (.keepalive on token .starting))
  | .publishing link [] none, .proceed => some (.receiving link .cancelled, l)
  | .yielding link .done, .proceed => some (.receiving link .cancelled, l)
  | .yielding link stage, .proceed => do
    let (stage, l) ← l.stepClosing link duplicateClose stage
    some (.yielding link stage, l)
  | .stopping link .done, .proceed => some (.confirming link (l.now + confirmTimeout), l)
  | .stopping link stage, .proceed => do
    let (stage, l) ← l.stepClosing link manualClose stage
    some (.stopping link stage, l)
  | .confirming link deadline, .proceed => do
    match (← l.links[link]?).closure with
    | some info => some (.dropping info, l.stopListening link)
    | none => if deadline ≤ l.now then some (.dropping manualClose, l.stopListening link) else none
  | .dropping info, .proceed => some (.announcing info, l.drop)
  | .announcing info, .proceed => some (.deciding info, l.publish (.disconnected info))
  | .deciding info, .proceed => some (l.decide parent info)
  | .exhausted info e, .proceed => some (.finishing info .enter, l.publish (.error (.retry e)))
  | .sleeping info _, .heed => if l.isCancelled parent then some (.finishing info .enter, l) else none
  | .sleeping info due, .proceed => if l.now < due then none else some (.dialing info .select, l)
  | .dialing _ (.finished (.ok link)), .proceed => some (.receiving link .cancelled, l)
  | .dialing info (.finished (.error e)), .proceed =>
    some (if l.isCancelled parent then .finishing info .enter else .complaining e, l)
  | .dialing info d, .proceed => do
    let (d, l) ← l.stepDialing world parent d
    some (.dialing info d, l)
  | .complaining e, .proceed => some (.deciding redialFailed, l.publish (.error e))
  | .finishing info stage, .proceed => some (l.stepFinish parent info stage)
  | _, _ => none

def Chain.deadline? : Chain → Option Nat
  | .yielding _ stage | .stopping _ stage => stage.deadline?
  | .confirming _ deadline => some deadline
  | .sleeping _ due => some due
  | .dialing _ d => d.deadline?
  | _ => none

end ChatWire.Listener
