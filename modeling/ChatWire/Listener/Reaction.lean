import ChatWire.Frame.Basic
import ChatWire.Listener.Events

/-! What an inbound frame calls for. -/

namespace ChatWire

inductive Reaction
  | ignore
  | report (e : ListenerError)
  | leave
  | rekey (key : CipherKey)
  | live (thread : Thread) (e : Envelope)
  | backfill (thread : Thread) (e : Envelope)
  deriving Repr

namespace Reaction

/-- A key frame must bring a key. -/
def ofKey (e : Envelope) : Reaction :=
  match e.key with
  | some k => if k.isEmpty then missing else rekey ⟨k⟩
  | none => missing
where
  missing := report (.decode .cipherKey .noKeyInFrame)

/-- A frame whose kind says that it has an envelope. -/
def ofEnvelope (body : Bytes) (routed : Envelope → Reaction) : Reaction :=
  match Envelope.parse body with
  | .error f => report (.decode .envelope (.envelope f))
  | .ok e => if e.errorCode ≠ 0 then report (.server e.errorCode e.errorMessage) else routed e

def ofFrame (f : Frame) : Reaction :=
  match f.kind with
  | .unknown | .ping => ignore
  | .duplicateConnection => leave
  | .cipherKey => ofEnvelope f.body ofKey
  | .messages t => ofEnvelope f.body (live t)
  | .oldMessages t => ofEnvelope f.body (backfill t)
  | .oldReactions _ => ofEnvelope f.body fun _ => ignore

def ofBytes (b : Bytes) : Reaction :=
  match Frame.decode? b with
  | none => report (.decode .frameHeader (.header b.length))
  | some f => ofFrame f

end Reaction

/-! The events that a batch gives rise to. -/

namespace Batch

/-- The items of a batch, each classified or refused. -/
def classify (uid : String) (thread : Thread) (b : Batch) : List (Except Json.Fault Item) :=
  (b.items thread).map (Item.classify uid thread)

def refused : List (Except Json.Fault Item) → List Json.Fault
  | [] => []
  | .error f :: r => f :: refused r
  | .ok _ :: r => refused r

def accepted : List (Except Json.Fault Item) → List Item
  | [] => []
  | .error _ :: r => accepted r
  | .ok i :: r => i :: accepted r

def liveEvent : Item → Event
  | .message m => .message m
  | .undo u => .undo u

def message? : Item → Option Message
  | .message m => some m
  | .undo _ => none

/-- Every refused item is reported; then come the accepted ones, own ones only if they are wanted. -/
def liveEvents (uid : String) (selfListen : Bool) (thread : Thread) (b : Batch) : List Event :=
  let items := b.classify uid thread
  (refused items).map (fun f => .error (.decode .messageBatch (.json f)))
    ++ ((accepted items).filter fun i => selfListen || !i.isSelf).map liveEvent

/-- Every refused item is reported; all messages make one event. -/
def backfillEvents (uid : String) (thread : Thread) (b : Batch) : List Event :=
  let items := b.classify uid thread
  (refused items).map (fun f => .error (.decode .oldMessages (.json f)))
    ++ [.oldMessages ⟨thread, (accepted items).filterMap message?⟩]

end Batch

/-- The events of a batch that may fail to be decoded. -/
def batchEvents (op : Operation) (events : Batch → List Event) (e : Envelope) (key : Option CipherKey) :
    List Event :=
  match e.decode Batch.reading key with
  | .ok b => events b
  | .error err => [.error (.decode op err)]

end ChatWire
