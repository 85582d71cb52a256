import ChatWire.Mailbox.Basic
import ChatWire.Task.Schedule

/-! A mailbox together with those who ask it for events. Asking is served in the order in which the bell
wakes. -/

namespace ChatWire

/-- `receivers` have asked and not left; `next` is the number of the one who asks next. -/
structure Reception (α : Type) where
  box : Mailbox α
  next : Nat
  receivers : List (Nat × Mailbox.Receiving α)
  deriving Repr

namespace Reception

variable {α : Type}

def empty (capacity : Nat) : Reception α := ⟨.empty capacity, 0, []⟩

/-- What the outside does, or one step of a receiver. -/
inductive Move (α : Type)
  | publish (event : α)
  | take
  | ask
  | leave (id : Nat)
  | close
  | reopen
  | snapshot
  | go (id : Nat)
  deriving Repr

def publish (a : α) (s : Reception α) : Outcome × Reception α :=
  let (o, box) := s.box.publish a
  (o, { s with box })

def take? (s : Reception α) : Option α × Reception α :=
  let (a, box) := s.box.take?
  (a, { s with box })

def ask (s : Reception α) : Reception α :=
  { s with next := s.next + 1, receivers := s.receivers ++ [(s.next, .start)] }

/-- A receiver goes away. If it was woken alone and has taken nothing, it passes the ring on. -/
def leave (id : Nat) (s : Reception α) : Reception α :=
  { s with box := { s.box with bell := s.box.bell.leave id },
           receivers := s.receivers.filter fun w => w.1 != id }

def close (s : Reception α) : Reception α := { s with box := s.box.close }

def reopen (s : Reception α) : Reception α := { s with box := s.box.reopen }

def go (id : Nat) (s : Reception α) : Option (Reception α) := do
  let (r, box) ← Mailbox.receive id (← s.receivers.lookup id) s.box
  some { s with box, receivers := s.receivers.map fun w => if w.1 = id then (id, r) else w }

def step : Move α → Reception α → Option (Reception α)
  | .publish a, s => some (s.publish a).2
  | .take, s => some s.take?.2
  | .ask, s => some s.ask
  | .leave id, s => some (s.leave id)
  | .close, s => some s.close
  | .reopen, s => some s.reopen
  | .snapshot, s => some s
  | .go id, s => s.go id

/-- The receiver whose turn it is: one on its way, or the one woken first. -/
def turn? (s : Reception α) : Option Nat :=
  match s.receivers.find? fun w => w.2.isMoving with
  | some w => some w.1
  | none => s.box.bell.rung.head?.map Prod.fst

/-- Lets the receivers go on as far as they can. -/
def settle (fuel : Nat) (s : Reception α) : Reception α :=
  Schedule.settle (fun s => s.turn?.toList.map .go) step fuel s

/-- What the receivers that have finished were given, which is nothing if the stream was closed. -/
def served (s : Reception α) : List (Nat × Option α) :=
  s.receivers.filterMap fun w => w.2.result?.map fun event => (w.1, event)

/-- Those who have finished go away. -/
def dismiss (s : Reception α) : Reception α :=
  { s with receivers := s.receivers.filter fun w => w.2.result?.isNone }

end Reception

end ChatWire
