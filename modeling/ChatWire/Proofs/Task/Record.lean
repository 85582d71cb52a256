import ChatWire.Task.Schedule
import Mathlib.Tactic

/-! Runs with a record of what each move came to. -/

namespace ChatWire.Schedule

variable {σ μ α : Type}

/-- The states reached by possible moves from `a` on, each with what is noted of the moves that led there. -/
inductive Recorded (step : μ → σ → Option σ) (note : μ → σ → σ → List α) (a : σ) : List α → σ → Prop
  | start : Recorded step note a [] a
  | step {log : List α} {s s' : σ} {m : μ} : Recorded step note a log s → step m s = some s' →
      Recorded step note a (log ++ note m s s') s'

/-- some moves, one after the other, with their record -/
def record (step : μ → σ → Option σ) (note : μ → σ → σ → List α) : List μ → List α × σ → Option (List α × σ)
  | [], r => some r
  | m :: ms, (log, s) =>
    match step m s with
    | some s' => record step note ms (log ++ note m s s', s')
    | none => none

variable {step : μ → σ → Option σ} {note : μ → σ → σ → List α} {a s : σ} {log : List α}

theorem recorded_record {ms : List μ} {r : List α × σ} (h : Recorded step note a log s)
    (hrecord : record step note ms (log, s) = some r) : Recorded step note a r.1 r.2 := by
  induction ms generalizing log s with
  | nil =>
    cases Option.some.inj hrecord
    exact h
  | cons m ms ih =>
    rw [record] at hrecord
    split at hrecord
    · next s' hstep => exact ih (h.step hstep) hrecord
    · cases hrecord

/-- A run that was tried out is there. -/
theorem exists_recorded {ms : List μ} {p : List α × σ → Bool} (h : (record step note ms ([], a)).any p) :
    ∃ log s, Recorded step note a log s ∧ p (log, s) := by
  obtain ⟨r, hrecord, hp⟩ := (Option.any_eq_true _ _).1 h
  exact ⟨r.1, r.2, recorded_record .start hrecord, hp⟩

/-- What possible moves keep holds of every state that they reach. -/
theorem Reaches.keeps {P : σ → Prop} {b : σ} (h : Reaches step a b) (ha : P a)
    (hstep : ∀ {m s s'}, P s → step m s = some s' → P s') : P b := by
  induction h with
  | refl => exact ha
  | tail _ hm ih => exact hstep ih hm

end ChatWire.Schedule
