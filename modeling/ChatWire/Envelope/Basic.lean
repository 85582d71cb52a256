import ChatWire.Frame.Basic
import ChatWire.Json.Printer
import ChatWire.Json.Reading

/-! Envelopes: the body of every inbound frame, an object that says how its payload is sealed. -/

namespace ChatWire

/-- how a payload is packed -/
inductive Encryption
  | plain
  | base64
  | sealedGzip
  | sealedRaw
  deriving DecidableEq, Repr

namespace Encryption

def ofTag? (n : Nat) : Option Encryption :=
  match n with
  | 0 => some plain
  | 1 => some base64
  | 2 => some sealedGzip
  | 3 => some sealedRaw
  | _ => none

def tag : Encryption → Nat
  | plain => 0
  | base64 => 1
  | sealedGzip => 2
  | sealedRaw => 3

def needsKey : Encryption → Bool
  | plain | base64 => false
  | sealedGzip | sealedRaw => true

theorem ofTag?_eq_some_iff {n : Nat} {e : Encryption} : ofTag? n = some e ↔ e.tag = n := by
  constructor
  · intro h
    unfold ofTag? at h
    split at h <;> simp_all <;> subst h <;> rfl
  · rintro rfl
    cases e <;> rfl

end Encryption

/-- `tag` is the number that names the packing, known or not. -/
structure Envelope where
  key : Option String
  tag : Nat
  errorCode : Int
  errorMessage : String
  data : Json
  deriving Repr

namespace Envelope

/-- an envelope in which nothing is given -/
def empty : Envelope := ⟨none, 0, 0, "", .null⟩

/-- an unsealed payload -/
def plain (data : Json) : Envelope := { empty with data }

open Json.Reading in
def reading : Json.Reading Envelope :=
  record empty
    [ field "key" (optional string) fun k e => { e with key := k },
      field "encrypt" nat8 fun t e => { e with tag := t },
      field "error_code" int64 fun c e => { e with errorCode := c },
      field "error_message" (optional string) fun m e => { e with errorMessage := m.getD "" },
      field "data" value fun d e => { e with data := d } ]

def parse (body : Bytes) : Except Json.Fault Envelope := reading.parse body

/-- The fields in the order in which they are written; the key is left out when there is none. -/
def fields (e : Envelope) : List (String × Json) :=
  (e.key.toList.map fun k => ("key", .str k)) ++
    [("encrypt", .nat e.tag), ("error_code", .int e.errorCode), ("error_message", .str e.errorMessage),
      ("data", e.data)]

def render (e : Envelope) : String := Json.renderInOrder e.fields

/-- the frame that brings the envelope -/
def toFrame (h : Header) (e : Envelope) : Frame := ⟨h, Text.toBytes e.render⟩

end Envelope

end ChatWire
