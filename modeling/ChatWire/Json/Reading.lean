import ChatWire.Json.Draft
import ChatWire.Text.Decimal

/-! Readers: what a value has to look like to be taken for something else. A reader is built from the
readers of its parts and works alike on a text and on a value that has been read before.

A record is read from an object, whose unknown fields are passed over, or from a list of its fields in
order. -/

namespace ChatWire.Json

/-- Where a tree comes from. A text may nest so many levels more, and a value as many as it likes. -/
inductive Origin
  | text (levels : Nat)
  | value

namespace Origin

/-- What is allowed inside a list or an object. -/
def enter : Origin → Except Fault Origin
  | text 0 => .error .malformed
  | text (n + 1) => .ok (text n)
  | value => .ok value

/-- The fault of a list that goes on after the last field of a record. -/
def surplus : Origin → Fault
  | text _ => .malformed
  | value => .mismatch

end Origin

/-- how deep a text may nest -/
def maxLevels : Nat := 127

abbrev Reading (α : Type) := Origin → Draft → Except Fault α

/-- The fault of a tree that is not what is asked for. A string or a number is read to its end first. -/
def Draft.unwanted : Draft → Fault
  | .number (.error f) => f
  | .string (.error f) => f
  | .broken _ f => f
  | _ => .mismatch

mutual

/-- Passes over a value of any depth. -/
def Draft.skip : Draft → Except Fault Unit
  | .array items => items.skip
  | .object members => members.skip
  | .broken f _ => .error f
  | _ => .ok ()

def Items.skip : Items → Except Fault Unit
  | .closed => .ok ()
  | .damaged f => .error f
  | .cons d rest => do
    d.skip
    rest.skip

def Members.skip : Members → Except Fault Unit
  | .closed => .ok ()
  | .damaged f => .error f
  | .cons key d rest => do
    key.skipped
    d.skip
    rest.skip

end

mutual

def Draft.read (o : Origin) : Draft → Except Fault Json
  | .null => .ok .null
  | .bool b => .ok (.bool b)
  | .number n => n.map .num
  | .string s => s.map .str
  | .array items => do pure (.arr (← items.read (← o.enter)))
  | .object members => do pure (.obj (← members.read (← o.enter) []))
  | .broken _ f => .error f

def Items.read (o : Origin) : Items → Except Fault (List Json)
  | .closed => .ok []
  | .damaged f => .error f
  | .cons d rest => do
    let j ← d.read o
    let r ← rest.read o
    pure (j :: r)

/-- Of two fields of one name the later one counts. -/
def Members.read (o : Origin) : Members → Fields → Except Fault Fields
  | .closed, fields => .ok fields
  | .damaged f, _ => .error f
  | .cons key d rest, fields => do
    let name ← key.text
    let j ← d.read o
    rest.read o (fields.insert name j)

end

namespace Reading

variable {α σ : Type}

/-- any value -/
def value : Reading Json := Draft.read

def string : Reading String
  | _, .string s => s
  | _, d => .error d.unwanted

def bool : Reading Bool
  | _, .bool b => .ok b
  | _, d => .error d.unwanted

/-- an integer from `low` to `high` -/
def integer (low high : Int) : Reading Int
  | _, .number (.ok (.int n)) => if low ≤ n ∧ n ≤ high then .ok n else .error .mismatch
  | _, d => .error d.unwanted

def natural (high : Nat) : Reading Nat := fun o d => Int.toNat <$> integer 0 high o d

def int64 : Reading Int := integer leastInt64 greatestInt64

def nat8 : Reading Nat := natural (UInt8.size - 1)

def nat16 : Reading Nat := natural (UInt16.size - 1)

def nat32 : Reading Nat := natural (UInt32.size - 1)

def nat64 : Reading Nat := natural (UInt64.size - 1)

def map (f : α → σ) (r : Reading α) : Reading σ := fun o d => f <$> r o d

/-- `null`, or what `r` reads -/
def optional (r : Reading α) : Reading (Option α)
  | _, .null => .ok none
  | o, d => some <$> r o d

def items (r : Reading α) (o : Origin) : Items → Except Fault (List α)
  | .closed => .ok []
  | .damaged f => .error f
  | .cons d rest => do
    let a ← r o d
    let as ← items r o rest
    pure (a :: as)

def list (r : Reading α) : Reading (List α)
  | o, .array l => do items r (← o.enter) l
  | _, d => .error d.unwanted

/-- The number that a field's name spells. In a text the digits must stand between the quotes as they
are. -/
def codeKey (o : Origin) (key : Key) : Except Fault Nat := do
  let text :=
    match o with
    | .text _ => if key.closed then key.raw ++ [34] else key.raw
    | .value => key.raw
  match text with
  | [] => throw .malformed
  | b :: _ => if ¬ (b = 45 ∨ Lexical.isDigit b) then throw .malformed
  let (numeral, rest) ← Lexical.numeral text
  let code ← nat16 o (.number numeral.number)
  match o, rest with
  | .text _, 34 :: _ => pure code
  | .value, [] => pure code
  | _, _ => throw .malformed

def codes (r : Reading α) (o : Origin) : Members → Except Fault (List (Nat × α))
  | .closed => .ok []
  | .damaged f => .error f
  | .cons key d rest => do
    let code ← codeKey o key
    let a ← r o d
    let table ← codes r o rest
    pure ((code, a) :: table)

/-- An object whose names are codes of 16 bits, in the order in which they come. -/
def codeTable (r : Reading α) : Reading (List (Nat × α))
  | o, .object members => do codes r (← o.enter) members
  | _, d => .error d.unwanted

/-- When a field may be absent: always, only from an object, or never. -/
inductive Need
  | optional
  | inList
  | always
  deriving DecidableEq

/-- A field of a record under construction. -/
structure Slot (σ : Type) where
  name : String
  need : Need
  put : Reading (σ → σ)

/-- a field that keeps its default when it is absent -/
def field (name : String) (r : Reading α) (set : α → σ → σ) : Slot σ :=
  ⟨name, .optional, map set r⟩

def required (name : String) (r : Reading α) (set : α → σ → σ) : Slot σ :=
  ⟨name, .always, map set r⟩

/-- Fields by name; none may come twice. `seen` are the names met so far. -/
def fromMembers (slots : List (Slot σ)) (o : Origin) : Members → List String → σ → Except Fault σ
  | .closed, seen, s =>
    if slots.any fun f => f.need == .always && !seen.contains f.name then .error .mismatch else .ok s
  | .damaged f, _, _ => .error f
  | .cons key d rest, seen, s => do
    let name ← key.text
    match slots.find? fun f => f.name == name with
    | none =>
      d.skip
      fromMembers slots o rest seen s
    | some f =>
      if seen.contains name then throw .mismatch
      let set ← f.put o d
      fromMembers slots o rest (name :: seen) (set s)

/-- Fields by position. -/
def fromItems (o : Origin) : List (Slot σ) → Items → σ → Except Fault σ
  | [], .closed, s => .ok s
  | [], .damaged f, _ => .error f
  | [], .cons _ _, _ => .error o.surplus
  | f :: slots, .closed, s =>
    if (f :: slots).any fun f => f.need != .optional then .error .mismatch else .ok s
  | _ :: _, .damaged f, _ => .error f
  | f :: slots, .cons d rest, s => do
    let set ← f.put o d
    fromItems o slots rest (set s)

def record (start : σ) (slots : List (Slot σ)) : Reading σ
  | o, .object members => do fromMembers slots (← o.enter) members [] start
  | o, .array items => do fromItems (← o.enter) slots items start
  | _, d => .error d.unwanted

/-- Reads a text, after which only blanks may follow. -/
def parse (r : Reading α) (text : Bytes) : Except Fault α := do
  let (d, rest) := Draft.ofText text
  let a ← r (.text maxLevels) d
  if (Lexical.skipBlanks rest).isEmpty then pure a else throw .malformed

def parseText (r : Reading α) (text : String) : Except Fault α := r.parse (Text.toBytes text)

/-- Reads what a value says. -/
def ofJson (r : Reading α) (j : Json) : Except Fault α := r .value j.toDraft

end Reading

/-- Reads a text as a value. -/
def parse (text : String) : Except Fault Json := Reading.value.parseText text

end ChatWire.Json
