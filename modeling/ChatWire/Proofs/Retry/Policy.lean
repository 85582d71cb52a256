import ChatWire.Proofs.Numbered
import ChatWire.Retry.Policy
import ChatWire.Retry.Rotation
import Mathlib.Algebra.BigOperators.Group.Finset.Basic
import Mathlib.Tactic

/-! What the budgets come to: each code has the rule that the settings keep for it, a retry spends from the budget
of its own code only, and a reset fills them all. -/

namespace ChatWire

namespace CodeTable

open Numbered (lookup_cons)

variable {α : Type}

theorem lookup_insert (code c : Nat) (a : α) (t : List (Nat × α)) :
    (insert code a t).lookup c = if c = code then some a else t.lookup c := by
  induction t with
  | nil => exact lookup_cons ..
  | cons x r ih =>
    obtain ⟨d, b⟩ := x
    by_cases hlt : code < d
    · rw [insert, if_pos hlt]
      exact lookup_cons ..
    · by_cases heq : code = d
      · rw [insert, if_neg hlt, if_pos heq, lookup_cons, lookup_cons, heq]
        split_ifs <;> rfl
      · rw [insert, if_neg hlt, if_neg heq, lookup_cons, lookup_cons, ih]
        split_ifs with hd hc
        · exact absurd (hc.symm.trans hd) heq
        all_goals rfl

/-- In a table each code has its last entry. -/
theorem lookup_ofList (c : Nat) (entries : List (Nat × α)) :
    (ofList entries).lookup c = entries.reverse.lookup c := by
  induction entries using List.reverseRecOn with
  | nil => rfl
  | append_singleton r x ih =>
    have hfold : ofList (r ++ [x]) = insert x.1 x.2 (ofList r) := List.foldl_append
    rw [hfold, lookup_insert, ih, List.reverse_append]
    exact (lookup_cons ..).symm

end CodeTable

namespace Settings

/-- Whether a code may be retried. -/
def allows (s : Settings) (code : Nat) : Bool := s.retryCodes.isEmpty || s.retryCodes.contains code

/-- the rule that is kept for a code -/
def rule? (s : Settings) (code : Nat) : Option RetryRule :=
  (s.retries.filter fun r => s.allows r.1).reverse.lookup code

/-- the codes that keep a rule, apart from those after which nobody tries again -/
def retryable (s : Settings) : Finset Nat :=
  (s.retries.map Prod.fst).toFinset.filter fun code => s.allows code ∧ code ∉ CloseCode.final

/-- how many retries a code has in a chain -/
def retriesOf (s : Settings) (code : Nat) : Nat := ((s.rule? code).map fun r => r.max - 1).getD 0

/-- how many retries a chain has -/
def allowance (s : Settings) : Nat := ∑ code ∈ s.retryable, s.retriesOf code

theorem mem_retryable {s : Settings} {code : Nat} {rule : RetryRule} (h : s.rule? code = some rule)
    (hfinal : code ∉ CloseCode.final) : code ∈ s.retryable := by
  have hmem := Numbered.mem_of_lookup h
  rw [List.mem_reverse, List.mem_filter] at hmem
  exact Finset.mem_filter.2 ⟨List.mem_toFinset.2 (List.mem_map.2 ⟨_, hmem.1, rfl⟩), hmem.2, hfinal⟩

end Settings

namespace RetryPolicy

variable {p p' : RetryPolicy} {code : Nat}

theorem budget?_reset (p : RetryPolicy) (code : Nat) :
    p.reset.budget? code = (p.budget? code).map fun b => .full b.rule :=
  Numbered.lookup_map (fun _ (b : Budget) => Budget.full b.rule) code p.budgets

theorem budget?_update (c : Nat) (f : Budget → Budget) (p : RetryPolicy) (code : Nat) :
    (p.update c f).budget? code = (p.budget? code).map fun b => if code = c then f b else b :=
  Numbered.lookup_map (fun d b => if d = c then f b else b) code p.budgets

/-- At first the budgets of all rules are full, and there are no others. -/
theorem budget?_ofRules (rules : List (Nat × RetryRule)) (code : Nat) :
    (ofRules rules).budget? code = (rules.reverse.lookup code).map Budget.full := by
  rw [budget?, ofRules, CodeTable.lookup_ofList, ← List.map_reverse]
  exact Numbered.lookup_map (fun _ => Budget.full) code _

theorem budget?_ofSettings (s : Settings) (code : Nat) :
    (ofSettings s).budget? code = (s.rule? code).map Budget.full := budget?_ofRules _ code

theorem eq_of_retry_none (h : p.retry code = (.none, p')) : p' = p := by
  unfold retry at h
  split at h
  · cases h
    rfl
  · split at h
    · cases h
      rfl
    · split at h <;> cases h
      rfl

/-- A retry that is granted spends from the budget of its code. -/
theorem of_retry_some {delay : Nat} (h : p.retry code = (some delay, p')) :
    code ∉ CloseCode.final ∧ p' = p.update code Budget.spend ∧
      ∃ b, p.budget? code = some b ∧ b.exhausted = false := by
  unfold retry at h
  split at h
  · cases h
  · next hfinal =>
    split at h
    · cases h
    · next b hb =>
      split at h <;> cases h
      next hleft => exact ⟨by simpa using hfinal, rfl, b, hb, by simpa using hleft⟩

end RetryPolicy

namespace Rotation

variable {r r' : Rotation}

theorem rotate_ok (h : r.rotate = .ok r') : r.index + 1 < r.endpoints.length ∧ r' = { r with index := r.index + 1 } := by
  unfold rotate at h
  split at h
  · next hlt =>
    cases h
    exact ⟨hlt, rfl⟩
  · cases h

theorem rotate_error {e : RotationError} (h : r.rotate = .error e) :
    r.endpoints.length ≤ r.index + 1 ∧ e = ⟨r.index, r.endpoints.length⟩ := by
  unfold rotate at h
  split at h
  · cases h
  · next hle =>
    cases h
    exact ⟨Nat.le_of_not_lt hle, rfl⟩

end Rotation

end ChatWire
