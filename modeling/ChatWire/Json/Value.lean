import ChatWire.Number.Binary64

/-! JSON values. The fields of an object are in the order of their names, each name once; the
operations here keep it so. -/

namespace ChatWire

/-- Integers stay exact as long as 64 bits hold them, signed or not. -/
inductive Number
  | int (n : Int)
  | float (x : Binary64)
  deriving DecidableEq, Repr

inductive Json
  | null
  | bool (b : Bool)
  | num (n : Number)
  | str (s : String)
  | arr (items : List Json)
  | obj (fields : List (String × Json))
  deriving Repr, Inhabited

/-- The fields of an object. -/
abbrev Fields := List (String × Json)

namespace Fields

/-- Puts a field at its place; a field of that name gives way. -/
def insert (name : String) (value : Json) : Fields → Fields
  | [] => [(name, value)]
  | (n, v) :: r =>
    if name < n then (name, value) :: (n, v) :: r
    else if name = n then (name, value) :: r
    else (n, v) :: insert name value r

def ofList (fields : List (String × Json)) : Fields :=
  fields.foldl (fun r (n, v) => insert n v r) []

def get? (name : String) (fields : Fields) : Option Json := fields.lookup name

def erase (name : String) (fields : Fields) : Fields := fields.filter fun f => f.1 != name

end Fields

namespace Json

def int (n : Int) : Json := .num (.int n)

def nat (n : Nat) : Json := .num (.int n)

/-- an object with the given fields, which may come in any order -/
def ofFields (fields : List (String × Json)) : Json := .obj (Fields.ofList fields)

/-- a value or `null` -/
def ofOption {α : Type} (f : α → Json) : Option α → Json
  | none => .null
  | some a => f a

def strings (l : List String) : Json := .arr (l.map .str)

def asString? : Json → Option String
  | .str s => some s
  | _ => none

def asFields? : Json → Option Fields
  | .obj fields => some fields
  | _ => none

end Json

end ChatWire
