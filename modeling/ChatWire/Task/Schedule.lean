/-! Letting everything happen that can happen by itself, and letting time pass meanwhile. -/

namespace ChatWire

namespace Schedule

variable {σ μ : Type}

/-- Tries each move once, and says whether any was possible. -/
def round (step : μ → σ → Option σ) : List μ → σ → Bool × σ
  | [], s => (false, s)
  | m :: r, s =>
    match step m s with
    | none => round step r s
    | some s => (true, (round step r s).2)

/-- Rounds of moves until none is possible. -/
def settle (moves : σ → List μ) (step : μ → σ → Option σ) : Nat → σ → σ
  | 0, s => s
  | fuel + 1, s =>
    match round step (moves s) s with
    | (true, s) => settle moves step fuel s
    | (false, s) => s

/-- States reached by possible moves. -/
inductive Reaches (step : μ → σ → Option σ) : σ → σ → Prop
  | refl (s : σ) : Reaches step s s
  | tail {a b c : σ} {m : μ} : Reaches step a b → step m b = some c → Reaches step a c

theorem Reaches.trans {step : μ → σ → Option σ} {a b c : σ} (h : Reaches step a b)
    (h' : Reaches step b c) : Reaches step a c := by
  induction h' with
  | refl => exact h
  | tail _ hm ih => exact ih.tail hm

theorem reaches_round (step : μ → σ → Option σ) (ms : List μ) (s : σ) :
    Reaches step s (round step ms s).2 := by
  induction ms generalizing s with
  | nil => exact .refl s
  | cons m r ih =>
    unfold round
    split
    · exact ih s
    · next t h => exact ((Reaches.refl s).tail h).trans (ih t)

theorem reaches_settle (moves : σ → List μ) (step : μ → σ → Option σ) (fuel : Nat) (s : σ) :
    Reaches step s (settle moves step fuel s) := by
  induction fuel generalizing s with
  | zero => exact .refl s
  | succ n ih =>
    unfold settle
    have h := reaches_round step (moves s) s
    split
    · next t ht =>
      rw [ht] at h
      exact h.trans (ih t)
    · next t ht =>
      rw [ht] at h
      exact h

end Schedule

/-- A clock that moves only when nothing else can: `next?` is the first time that something waits for. -/
structure Clock (σ : Type) where
  settle : σ → σ
  next? : σ → Option Nat
  set : Nat → σ → σ

namespace Clock

variable {σ : Type}

/-- Lets time pass up to `target`. -/
def advance (c : Clock σ) (target : Nat) : Nat → σ → σ
  | 0, s => c.settle (c.set target s)
  | fuel + 1, s =>
    match c.next? s with
    | some d =>
      if d ≤ target then c.advance target fuel (c.settle (c.set d s))
      else c.settle (c.set target s)
    | none => c.settle (c.set target s)

/-- Lets time pass until something has happened. -/
def runUntil (c : Clock σ) (happened : σ → Bool) : Nat → σ → σ
  | 0, s => s
  | fuel + 1, s =>
    if happened s then s
    else
      match c.next? s with
      | some d => c.runUntil happened fuel (c.settle (c.set d s))
      | none => s

/-- The first of some times that is still to come. -/
def first? (now : Nat) (times : List Nat) : Option Nat := (times.filter (now < ·)).min?

end Clock

end ChatWire
