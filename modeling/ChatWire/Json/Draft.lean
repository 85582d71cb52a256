import ChatWire.Json.Lexical

/-! A JSON text read as far as it goes. What is wrong with it stays in its place in the tree, so that a
reader that visits the tree from left to right meets the first fault first. -/

namespace ChatWire.Json

/-- The name of a field: what stands between its quotes, whether there is a closing quote, the text meant,
and the fault that stops even one who skips it. -/
structure Key where
  raw : Bytes
  closed : Bool
  text : Except Fault String
  skipped : Except Fault Unit

mutual

/-- `broken` holds the fault met by one who skips the value, and the one met by one who reads it. -/
inductive Draft
  | null
  | bool (b : Bool)
  | number (n : Except Fault Number)
  | string (s : Except Fault String)
  | array (items : Items)
  | object (members : Members)
  | broken (skipped read : Fault)

inductive Items
  | closed
  | damaged (fault : Fault)
  | cons (item : Draft) (rest : Items)

inductive Members
  | closed
  | damaged (fault : Fault)
  | cons (key : Key) (value : Draft) (rest : Members)

end

namespace Draft

/-- Takes the letters of `word` off the text. -/
def word (meaning : Draft) : Bytes → Bytes → Draft × Bytes
  | [], r => (meaning, r)
  | _ :: _, [] => (.broken .truncated .truncated, [])
  | w :: ws, b :: r =>
    if w = b then word meaning ws r else (.broken .malformed .malformed, [])

def scanString (b : Bytes) : Draft × Bytes :=
  match Lexical.skipString b with
  | .ok r => (.string (Lexical.stringText b), r)
  | .error f =>
    match Lexical.stringText b with
    | .error g => (.broken f g, [])
    | .ok _ => (.broken f f, [])

/-- A number cut short counts as broken grammar for one who skips it. -/
def scanNumber (b : Bytes) : Draft × Bytes :=
  match Lexical.numeral b with
  | .ok (n, r) => (.number n.number, r)
  | .error f => (.broken .malformed f, [])

/-- The name whose opening quote has been taken, and what follows it. -/
def scanKey (b : Bytes) : Key × Bytes :=
  match Lexical.skipString b with
  | .ok r => (⟨b.take (b.length - r.length - 1), true, Lexical.stringText b, .ok ()⟩, r)
  | .error f =>
    let text :=
      match Lexical.stringText b with
      | .error g => .error g
      | .ok _ => .error f
    (⟨b, false, text, .error f⟩, [])

mutual

/-- The value at the front of the text and what follows it. Two calls take a byte at least, which bounds
the fuel. After a fault nothing is left. -/
def scan : Nat → Bytes → Draft × Bytes
  | 0, _ => (.broken .truncated .truncated, [])
  | fuel + 1, text =>
    match Lexical.skipBlanks text with
    | [] => (.broken .truncated .truncated, [])
    | b :: r =>
      if b = 34 then scanString r
      else if b = 91 then
        let (items, s) := scanItems fuel true r
        (.array items, s)
      else if b = 123 then
        let (members, s) := scanMembers fuel true r
        (.object members, s)
      else if b = 110 then word .null [117, 108, 108] r
      else if b = 116 then word (.bool true) [114, 117, 101] r
      else if b = 102 then word (.bool false) [97, 108, 115, 101] r
      else if b = 45 ∨ Lexical.isDigit b then scanNumber (b :: r)
      else (.broken .malformed .malformed, [])

/-- The rest of a list; `first` as long as none of its items has been read. -/
def scanItems : Nat → Bool → Bytes → Items × Bytes
  | 0, _, _ => (.damaged .truncated, [])
  | fuel + 1, first, text =>
    match Lexical.skipBlanks text with
    | [] => (.damaged .truncated, [])
    | b :: r =>
      if b = 93 then (.closed, r)
      else if first then
        let (d, s) := scan fuel (b :: r)
        let (rest, s) := scanItems fuel false s
        (.cons d rest, s)
      else if b = 44 then
        match Lexical.skipBlanks r with
        | [] => (.damaged .truncated, [])
        | c :: s =>
          if c = 93 then (.damaged .malformed, [])
          else
            let (d, s) := scan fuel (c :: s)
            let (rest, s) := scanItems fuel false s
            (.cons d rest, s)
      else (.damaged .malformed, [])

def scanMembers : Nat → Bool → Bytes → Members × Bytes
  | 0, _, _ => (.damaged .truncated, [])
  | fuel + 1, first, text =>
    match Lexical.skipBlanks text with
    | [] => (.damaged .truncated, [])
    | b :: r =>
      if b = 125 then (.closed, r)
      else if first then scanMember fuel (b :: r)
      else if b = 44 then scanMember fuel (Lexical.skipBlanks r)
      else (.damaged .malformed, [])

/-- A name, a colon, a value, and the rest of the object. -/
def scanMember : Nat → Bytes → Members × Bytes
  | 0, _ => (.damaged .truncated, [])
  | _ + 1, [] => (.damaged .truncated, [])
  | fuel + 1, b :: r =>
    if b ≠ 34 then (.damaged .malformed, [])
    else
      let (key, s) := scanKey r
      match Lexical.skipBlanks s with
      | [] => (.cons key (.broken .truncated .truncated) .closed, [])
      | c :: s =>
        if c = 58 then
          let (d, s) := scan fuel s
          let (rest, s) := scanMembers fuel false s
          (.cons key d rest, s)
        else (.cons key (.broken .malformed .malformed) .closed, [])

end

/-- The value at the front of a text, and what follows it. -/
def ofText (text : Bytes) : Draft × Bytes := scan (3 * text.length + 3) text

end Draft

mutual

/-- The tree of a value, in which nothing is wrong. -/
def toDraft : Json → Draft
  | .null => .null
  | .bool b => .bool b
  | .num n => .number (.ok n)
  | .str s => .string (.ok s)
  | .arr items => .array (itemsToDraft items)
  | .obj fields => .object (fieldsToDraft fields)

def itemsToDraft : List Json → Items
  | [] => .closed
  | j :: r => .cons j.toDraft (itemsToDraft r)

def fieldsToDraft : List (String × Json) → Members
  | [] => .closed
  | (k, j) :: r => .cons ⟨Text.toBytes k, true, .ok k, .ok ()⟩ j.toDraft (fieldsToDraft r)

end

end ChatWire.Json
