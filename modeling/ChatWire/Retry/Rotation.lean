/-! The walk through the endpoints: forward, one at a time, and never past the last. -/

namespace ChatWire

/-- There is no endpoint after the one at `index` among `length`. -/
structure RotationError where
  index : Nat
  length : Nat
  deriving DecidableEq, Repr

def RotationError.message (e : RotationError) : String :=
  "endpoint list exhausted at index " ++ toString e.index ++ " of " ++ toString e.length

/-- `codes` are the close codes that call for the next endpoint. -/
structure Rotation where
  endpoints : List String
  index : Nat
  codes : List Nat
  deriving DecidableEq, Repr

namespace Rotation

def start (endpoints : List String) (codes : List Nat) : Rotation := ⟨endpoints, 0, codes⟩

def rotatesOn (r : Rotation) (code : Nat) : Bool := r.codes.contains code

def current? (r : Rotation) : Option String := r.endpoints[r.index]?

def reset (r : Rotation) : Rotation := { r with index := 0 }

def rotate (r : Rotation) : Except RotationError Rotation :=
  if r.index + 1 < r.endpoints.length then .ok { r with index := r.index + 1 }
  else .error ⟨r.index, r.endpoints.length⟩

end Rotation

end ChatWire
