import ChatWire.Json.Reading

/-! The settings that a server gives for the socket: how often to ping, when to try again, and when to go
on to another endpoint. -/

/-! Tables by close code, in the order of the codes, each code once. -/

namespace ChatWire.CodeTable

variable {α : Type}

/-- Puts an entry at its place; an entry of that code gives way. -/
def insert (code : Nat) (a : α) : List (Nat × α) → List (Nat × α)
  | [] => [(code, a)]
  | (c, b) :: r =>
    if code < c then (code, a) :: (c, b) :: r
    else if code = c then (code, a) :: r
    else (c, b) :: insert code a r

/-- Of two entries of one code the later one counts. -/
def ofList (entries : List (Nat × α)) : List (Nat × α) :=
  entries.foldl (fun t (c, a) => insert c a t) []

end ChatWire.CodeTable

/-! Settings. -/

namespace ChatWire

/-- How many connections a close code allows, the first one included, and how long to wait before each
retry. -/
structure RetryRule where
  max : Nat
  times : List Nat
  deriving DecidableEq, Repr

structure Settings where
  pingInterval : Nat
  retries : List (Nat × RetryRule)
  rotateCodes : List Nat
  retryCodes : List Nat
  deriving DecidableEq, Repr

namespace RetryRule

/-- A lone delay is a list of one. -/
def delays? : Json → Option (List Nat)
  | .arr items => items.mapM delay?
  | j => (delay? j).map fun n => [n]
where
  delay? : Json → Option Nat
    | .num (.int n) => if 0 ≤ n ∧ n < UInt64.size then some n.toNat else none
    | _ => none

def readDelays : Json.Reading (List Nat) := fun o d => do
  match delays? (← Json.Reading.value o d) with
  | some l => pure l
  | none => throw .mismatch

open Json.Reading in
def reading : Json.Reading RetryRule :=
  record ⟨0, []⟩
    [ required "max" nat32 fun n r => { r with max := n },
      required "times" readDelays fun l r => { r with times := l } ]

def toJson (r : RetryRule) : Json := .obj [("max", .nat r.max), ("times", .arr (r.times.map .nat))]

end RetryRule

namespace Settings

def none : Settings := ⟨0, [], [], []⟩

open Json.Reading in
def reading : Json.Reading Settings :=
  record none
    [ field "ping_interval" nat64 fun n s => { s with pingInterval := n },
      field "retries" (codeTable RetryRule.reading) fun t s =>
        { s with retries := CodeTable.ofList t },
      field "rotate_error_codes" (list nat16) fun l s => { s with rotateCodes := l },
      field "close_and_retry_codes" (list nat16) fun l s => { s with retryCodes := l } ]

/-- The fields in the order in which they are written. -/
def toJson (s : Settings) : Json :=
  .obj
    [("ping_interval", .nat s.pingInterval),
      ("retries", .ofFields (s.retries.map fun (c, r) => (toString c, r.toJson))),
      ("rotate_error_codes", .arr (s.rotateCodes.map .nat)),
      ("close_and_retry_codes", .arr (s.retryCodes.map .nat))]

end Settings

end ChatWire
