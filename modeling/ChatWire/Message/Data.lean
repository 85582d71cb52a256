import ChatWire.Bytes.Basic
import ChatWire.Json.Printer
import ChatWire.Json.Reading
import ChatWire.Text.Decimal

/-! The items of a message batch. Servers are free with the types of their fields, so that a field is read
leniently: any value has a text, and any value has a number. -/

namespace ChatWire

namespace Lenient

/-- A string itself, nothing for `null`, and the JSON text of anything else. -/
def text : Json → String
  | .null => ""
  | .str s => s
  | j => j.render

/-- A number, or the number that a string spells, within 64 bits; zero for anything else. -/
def int64 : Json → Int
  | .num (.int n) => min n greatestInt64
  | .num (.float x) => x.toInt64
  | .str s => (Decimal.int64? (Text.trim s)).getD 0
  | _ => 0

/-- the text of a field, which may be absent -/
def textField (fields : Fields) (name : String) : String := ((fields.get? name).map text).getD ""

def intField (fields : Fields) (name : String) : Int := ((fields.get? name).map int64).getD 0

end Lenient

/-- An item with the fields that have a meaning here and all others besides. -/
structure MessageData where
  msgId : String
  cliMsgId : String
  msgType : String
  uidFrom : String
  idTo : String
  dName : String
  ts : String
  content : Json
  ttl : Int
  extra : Fields
  deriving Repr

namespace MessageData

def names : List String :=
  ["msgId", "cliMsgId", "msgType", "uidFrom", "idTo", "dName", "ts", "content", "ttl"]

def ofFields (f : Fields) : MessageData where
  msgId := Lenient.textField f "msgId"
  cliMsgId := Lenient.textField f "cliMsgId"
  msgType := Lenient.textField f "msgType"
  uidFrom := Lenient.textField f "uidFrom"
  idTo := Lenient.textField f "idTo"
  dName := Lenient.textField f "dName"
  ts := Lenient.textField f "ts"
  content := (f.get? "content").getD .null
  ttl := Lenient.intField f "ttl"
  extra := f.filter fun x => !names.contains x.1

/-- Only objects are items. -/
def ofJson (j : Json) : Except Json.Fault MessageData :=
  match j.asFields? with
  | some f => .ok (ofFields f)
  | none => .error .mismatch

def toJson (d : MessageData) : Json :=
  .ofFields <|
    [("msgId", .str d.msgId), ("cliMsgId", .str d.cliMsgId), ("msgType", .str d.msgType),
      ("uidFrom", .str d.uidFrom), ("idTo", .str d.idTo), ("dName", .str d.dName), ("ts", .str d.ts),
      ("content", d.content), ("ttl", .int d.ttl)] ++ d.extra

end MessageData

/-- What a recall says of the message that it takes back. -/
structure UndoContent where
  globalMsgId : String
  cliMsgId : String
  deleteMsg : String
  srcId : String
  destId : String
  deriving DecidableEq, Repr

namespace UndoContent

def ofFields (f : Fields) : UndoContent where
  globalMsgId := Lenient.textField f "globalMsgId"
  cliMsgId := Lenient.textField f "cliMsgId"
  deleteMsg := Lenient.textField f "deleteMsg"
  srcId := Lenient.textField f "srcId"
  destId := Lenient.textField f "destId"

def toJson (u : UndoContent) : Json :=
  .ofFields
    [("globalMsgId", .str u.globalMsgId), ("cliMsgId", .str u.cliMsgId), ("deleteMsg", .str u.deleteMsg),
      ("srcId", .str u.srcId), ("destId", .str u.destId)]

end UndoContent

end ChatWire
