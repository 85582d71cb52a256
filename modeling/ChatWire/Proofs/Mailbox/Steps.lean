import ChatWire.Mailbox.Reception
import ChatWire.Proofs.Numbered

/-! What one step of a receiver can be, and what a move does to the list of those who have asked. -/

namespace ChatWire

namespace Mailbox

variable {α : Type} {id : Nat} {m m' : Mailbox α} {r r' : Receiving α}

/-- All the ways in which a receiver goes on. -/
inductive ReceiveStep (id : Nat) (m : Mailbox α) : Receiving α → Receiving α → Mailbox α → Prop
  | join : ReceiveStep id m .start .joined { m with bell := m.bell.join id }
  | take {a : α} {rest : List α} : m.buffer = a :: rest →
      ReceiveStep id m .joined (.done (some a)) { m with buffer := rest, bell := m.bell.leave id }
  | miss : m.buffer = [] → ReceiveStep id m .joined .foundEmpty m
  | release : m.closed → ReceiveStep id m .foundEmpty (.done none) { m with bell := m.bell.leave id }
  | rest : m.closed = false → ReceiveStep id m .foundEmpty .waiting m
  | heed : m.bell.isRung id → ReceiveStep id m .waiting .start { m with bell := m.bell.heed id }

theorem receive_cases (h : receive id r m = some (r', m')) : ReceiveStep id m r r' m' := by
  cases r with
  | start =>
    cases Option.some.inj h
    exact .join
  | joined =>
    simp only [receive, take?] at h
    cases hbuffer : m.buffer with
    | nil =>
      rw [hbuffer] at h
      cases Option.some.inj h
      exact .miss hbuffer
    | cons a rest =>
      rw [hbuffer] at h
      cases Option.some.inj h
      exact .take hbuffer
  | foundEmpty =>
    simp only [receive] at h
    split at h
    · next hclosed =>
      cases Option.some.inj h
      exact .release hclosed
    · next hopen =>
      cases Option.some.inj h
      exact .rest (by simpa using hopen)
  | waiting =>
    simp only [receive, Option.ite_none_right_eq_some] at h
    obtain ⟨hrung, h⟩ := h
    cases Option.some.inj h
    exact .heed hrung
  | done => cases h

/-- Only who waits unwoken, or has finished, cannot go on. -/
theorem receive_eq_none (h : receive id r m = none) :
    r = .waiting ∧ m.bell.isRung id = false ∨ ∃ event, r = .done event := by
  cases r with
  | start => cases h
  | joined =>
    simp only [receive] at h
    split at h <;> cases h
  | foundEmpty =>
    simp only [receive] at h
    split at h <;> cases h
  | waiting =>
    simp only [receive, ite_eq_right_iff, reduceCtorEq, imp_false, Bool.not_eq_true] at h
    exact .inl ⟨rfl, h⟩
  | done event => exact .inr ⟨event, rfl⟩

end Mailbox

/-! Those who have asked, by their numbers. -/

namespace Reception

open Mailbox (Receiving ReceiveStep)

variable {α : Type} {id : Nat} {s k : Reception α}

/-- where receiver `id` stands, if it has asked and not left -/
def stage? (s : Reception α) (id : Nat) : Option (Receiving α) := s.receivers.lookup id

/-- the reception after receiver `id` has gone on to `r`, and the stream with it -/
def goOn (id : Nat) (r : Receiving α) (box : Mailbox α) (s : Reception α) : Reception α :=
  { s with box, receivers := Numbered.replace id r s.receivers }

theorem go_cases (h : s.go id = some k) :
    ∃ r r' box, s.stage? id = some r ∧ ReceiveStep id s.box r r' box ∧ k = s.goOn id r' box := by
  simp only [go, Option.bind_eq_bind, Option.bind_eq_some_iff, Option.some.injEq] at h
  obtain ⟨r, hr, ⟨r', box⟩, hstep, rfl⟩ := h
  exact ⟨r, r', box, hr, Mailbox.receive_cases hstep, rfl⟩

theorem receive_of_go_eq_none {r : Receiving α} (h : s.go id = none) (hr : s.stage? id = some r) :
    Mailbox.receive id r s.box = none := by
  simp only [go, Option.bind_eq_bind, Option.bind_eq_none_iff] at h
  by_contra hsome
  obtain ⟨p, hp⟩ := Option.ne_none_iff_exists'.1 hsome
  exact nomatch h r hr p hp

theorem stage?_goOn {r : Receiving α} (h : s.stage? id = some r) (r' : Receiving α) (box : Mailbox α) (x : Nat) :
    (s.goOn id r' box).stage? x = if x = id then some r' else s.stage? x := by
  rw [stage?, goOn, Numbered.lookup_replace]
  split_ifs with hx
  · rw [hx]
    exact congrArg (Option.map fun _ => r') h
  · rfl

theorem stage?_leave (id x : Nat) (s : Reception α) :
    (s.leave id).stage? x = if x = id then none else s.stage? x := Numbered.lookup_without x id

end Reception

end ChatWire
