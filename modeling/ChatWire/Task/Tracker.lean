/-! Counting background tasks, for those who wait until there are none. -/

namespace ChatWire

/-- `emptied` counts how often the tracker, being closed, has come to have no task. -/
structure Tracker where
  closed : Bool
  running : Nat
  emptied : Nat
  deriving DecidableEq, Repr

namespace Tracker

def start : Tracker := ⟨false, 0, 0⟩

def isDone (t : Tracker) : Bool := t.closed && t.running == 0

def spawn (t : Tracker) : Tracker := { t with running := t.running + 1 }

def note (before after : Tracker) : Tracker :=
  if after.isDone && !before.isDone then { after with emptied := after.emptied + 1 } else after

def exit (t : Tracker) : Tracker := note t { t with running := t.running - 1 }

def close (t : Tracker) : Tracker := note t { t with closed := true }

/-- New tasks keep those who come later waiting again. -/
def reopen (t : Tracker) : Tracker := { t with closed := false }

/-- Whether one who began to wait when the tracker had been emptied `since` times may go on. -/
def isReleased (since : Nat) (t : Tracker) : Bool := t.isDone || since < t.emptied

end Tracker

end ChatWire
