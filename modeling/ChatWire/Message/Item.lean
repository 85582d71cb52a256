import ChatWire.Frame.Basic
import ChatWire.Message.Data

/-! Classified items. The server calls the account of the session `0`; an item says the account's own
identifier instead, and whether it came from the account itself. -/

namespace ChatWire

structure Message where
  threadId : String
  thread : Thread
  isSelf : Bool
  data : MessageData
  deriving Repr

structure Undo where
  threadId : String
  thread : Thread
  isSelf : Bool
  data : MessageData
  undo : UndoContent
  deriving Repr

inductive Item
  | message (m : Message)
  | undo (u : Undo)
  deriving Repr

namespace Item

/-- the account of the session, as the server calls it -/
def selfId : String := "0"

/-- An item whose content has a field `deleteMsg` takes back a message. -/
def undoOf? (content : Json) : Option UndoContent :=
  match content.asFields? with
  | some f => if (f.get? "deleteMsg").isSome then some (.ofFields f) else none
  | none => none

/-- The conversation is named as the server names it, the account by its own identifier. -/
def classify (uid : String) (thread : Thread) (raw : Json) : Except Json.Fault Item := do
  let d ← MessageData.ofJson raw
  let isSelf := d.uidFrom == selfId
  let threadId :=
    match thread with
    | .user => if isSelf then d.idTo else d.uidFrom
    | .group => d.idTo
  let data :=
    { d with
      idTo := if d.idTo = selfId then uid else d.idTo
      uidFrom := if isSelf then uid else d.uidFrom }
  match undoOf? d.content with
  | some u => pure (.undo ⟨threadId, thread, isSelf, data, u⟩)
  | none => pure (.message ⟨threadId, thread, isSelf, data⟩)

def isSelf : Item → Bool
  | message m => m.isSelf
  | undo u => u.isSelf

end Item

/-- The payload of a batch frame: one list of items for each kind of conversation. -/
structure Batch where
  user : List Json
  group : List Json
  deriving Repr

namespace Batch

def empty : Batch := ⟨[], []⟩

open Json.Reading in
def body : Json.Reading Batch :=
  record empty
    [ field "msgs" (list value) fun l b => { b with user := l },
      field "groupMsgs" (list value) fun l b => { b with group := l } ]

open Json.Reading in
def reading : Json.Reading Batch := record empty [field "data" body fun b _ => b]

def items (b : Batch) : Thread → List Json
  | .user => b.user
  | .group => b.group

end Batch

/-- The answer to a request for old messages. -/
structure OldMessages where
  thread : Thread
  messages : List Message
  deriving Repr

end ChatWire
