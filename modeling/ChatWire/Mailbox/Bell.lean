/-! A bell that wakes waiting receivers, one at a time or all together. Rung for one while nobody waits, it
remembers that for the next who comes. -/

namespace ChatWire

/-- How a receiver was woken: alone, with all others, or by a ring remembered from before. -/
inductive Ring
  | one
  | all
  | kept
  deriving DecidableEq, Repr

/-- Receivers are numbers. Those in `waiting` have not been woken and stand in the order in which they
came; those in `rung` have been woken and have not gone on yet. -/
structure Bell where
  kept : Bool
  waiting : List Nat
  rung : List (Nat × Ring)
  deriving DecidableEq, Repr

namespace Bell

def quiet : Bell := ⟨false, [], []⟩

/-- Wakes the one who has waited longest. -/
def ringOne (b : Bell) : Bell :=
  match b.waiting with
  | [] => { b with kept := true }
  | w :: r => { b with waiting := r, rung := b.rung ++ [(w, .one)] }

/-- Wakes all who wait and leaves nothing for later. -/
def ringAll (b : Bell) : Bell :=
  { b with waiting := [], rung := b.rung ++ b.waiting.map fun w => (w, .all) }

/-- Begins to wait, or takes the remembered ring. -/
def join (id : Nat) (b : Bell) : Bell :=
  if b.kept then { b with kept := false, rung := b.rung ++ [(id, .kept)] }
  else { b with waiting := b.waiting ++ [id] }

def isRung (id : Nat) (b : Bell) : Bool := b.rung.any fun r => r.1 == id

/-- Goes on after being woken. -/
def heed (id : Nat) (b : Bell) : Bell := { b with rung := b.rung.filter fun r => r.1 != id }

/-- Stops waiting. Who was woken alone passes the ring on. -/
def leave (id : Nat) (b : Bell) : Bell :=
  let left : Bell :=
    { b with waiting := b.waiting.filter (· != id), rung := b.rung.filter fun r => r.1 != id }
  if b.rung.contains (id, .one) then left.ringOne else left

end Bell

end ChatWire
