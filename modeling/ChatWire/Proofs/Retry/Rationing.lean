import ChatWire.Proofs.Retry.Policy

/-! What a policy answers in the long run. How often a code has been asked for since the last reset decides the
answer, whatever else was asked in between. -/

namespace ChatWire

/-- what a policy is asked for -/
inductive Ask
  | retry (code : Nat)
  | reset
  deriving DecidableEq, Repr

namespace Ask

/-- Whether the budget of a code takes notice. -/
def concerns (code : Nat) : Ask → Bool
  | retry c => c == code
  | reset => true

/-- How often a retry has been asked for since the last reset. -/
def tally (code : Nat) (asks : List Ask) : Nat := (asks.reverse.takeWhile (· != reset)).count (retry code)

theorem tally_reset (code : Nat) (asks : List Ask) : tally code (asks ++ [reset]) = 0 := by simp [tally]

theorem tally_retry (code c : Nat) (asks : List Ask) :
    tally code (asks ++ [retry c]) = tally code asks + if c = code then 1 else 0 := by
  simp [tally, List.count_cons]

theorem tally_filter (code : Nat) (asks : List Ask) : tally code (asks.filter (concerns code)) = tally code asks := by
  induction asks using List.reverseRecOn with
  | nil => rfl
  | append_singleton asks a ih =>
    rw [List.filter_append]
    cases a with
    | reset =>
      rw [List.filter_cons_of_pos (by simp [concerns]), List.filter_nil, tally_reset, tally_reset]
    | retry c =>
      by_cases hc : c = code
      · rw [List.filter_cons_of_pos (by simp [concerns, hc]), List.filter_nil, tally_retry, tally_retry, ih]
      · rw [List.filter_cons_of_neg (by simp [concerns, hc]), List.filter_nil, List.append_nil, tally_retry, ih,
          if_neg hc, Nat.add_zero]

end Ask

namespace CodeTable

variable {α β : Type}

theorem insert_map (f : α → β) (code : Nat) (a : α) (t : List (Nat × α)) :
    insert code (f a) (t.map fun x => (x.1, f x.2)) = (insert code a t).map fun x => (x.1, f x.2) := by
  induction t with
  | nil => rfl
  | cons x r ih =>
    simp only [List.map_cons, insert, ih]
    split_ifs <;> rfl

theorem ofList_map (f : α → β) (entries : List (Nat × α)) :
    ofList (entries.map fun x => (x.1, f x.2)) = (ofList entries).map fun x => (x.1, f x.2) := by
  induction entries using List.reverseRecOn with
  | nil => rfl
  | append_singleton r x ih =>
    have hfold {γ : Type} (l : List (Nat × γ)) (y : Nat × γ) : ofList (l ++ [y]) = insert y.1 y.2 (ofList l) :=
      List.foldl_append
    rw [List.map_append, List.map_singleton, hfold, hfold, ih, ← insert_map]

end CodeTable

namespace RetryRule

/-- The delay before the `n`-th retry, counted from one; the last one in the table serves for all that follow. -/
def delay (r : RetryRule) (n : Nat) : Nat := (r.times[min (n - 1) (r.times.length - 1)]?).getD 0

end RetryRule

namespace Budget

theorem delay_eq (b : Budget) : b.delay = b.rule.delay b.attempts := by
  unfold delay RetryRule.delay
  rcases Nat.lt_or_ge (b.attempts - 1) b.rule.times.length with hlt | hge
  · rw [Nat.min_eq_left (by omega), List.getElem?_eq_getElem hlt]
    rfl
  · rw [Nat.min_eq_right (by omega), List.getElem?_eq_none hge, List.getLastD_eq_getLast?,
      List.getLast?_eq_getElem?]
    rfl

end Budget

namespace RetryPolicy

/-- The policy after an answer. -/
def heed (p : RetryPolicy) : Ask → RetryPolicy
  | .retry code => (p.retry code).2
  | .reset => p.reset

def after (p : RetryPolicy) (asks : List Ask) : RetryPolicy := asks.foldl heed p

theorem after_concat (p : RetryPolicy) (asks : List Ask) (a : Ask) : p.after (asks ++ [a]) = (p.after asks).heed a :=
  List.foldl_append

/-- Whether the `n`-th call for a code since the last reset is granted. -/
def grants (r : RetryRule) (code n : Nat) : Bool := code ≠ 3000 ∧ code ≠ 3003 ∧ n < r.max

/-- the answer to that call, given the rules of the codes -/
def answer (rule? : Nat → Option RetryRule) (code n : Nat) : Option Nat :=
  ((rule? code).filter fun r => grants r code n).map fun r => r.delay n

/-- What a policy answers and what becomes of its budgets, when `rule?` has the rules of the codes. -/
structure Rations (p : RetryPolicy) (rule? : Nat → Option RetryRule) : Prop where
  /-- The number of the call decides. -/
  answers : ∀ asks code, ((p.after asks).retry code).1 = answer rule? code (Ask.tally code asks + 1)
  refusal : ∀ asks code, ((p.after asks).retry code).1 = .none → ((p.after asks).retry code).2 = p.after asks
  /-- Calls with other codes do not matter. -/
  apart : ∀ asks code,
    ((p.after asks).retry code).1 = ((p.after (asks.filter (Ask.concerns code))).retry code).1
  attempts : ∀ asks code b, (p.after asks).budget? code = some b →
    rule? code = some b.rule ∧ 1 ≤ b.attempts ∧ b.attempts ≤ max 1 b.rule.max ∧
      (b.rule.max < UInt32.size → b.attempts < UInt32.size)
  reset : ∀ asks, (p.after asks).reset = p

/-! A reset. -/

theorem reset_reset (p : RetryPolicy) : p.reset.reset = p.reset := by simp [RetryPolicy.reset, Budget.full]

theorem reset_update_spend (code : Nat) (p : RetryPolicy) : (p.update code Budget.spend).reset = p.reset := by
  simp only [RetryPolicy.reset, update, List.map_map, RetryPolicy.mk.injEq]
  apply List.map_congr_left
  intro x _
  by_cases hx : x.1 = code <;> simp [hx, Budget.spend]

theorem reset_heed (p : RetryPolicy) (a : Ask) : (p.heed a).reset = p.reset := by
  cases a with
  | reset => exact reset_reset p
  | retry code =>
    rcases h : p.retry code with ⟨_ | delay, q⟩
    · rw [heed, h, eq_of_retry_none h]
    · rw [heed, h, (of_retry_some h).2.1, reset_update_spend]

theorem reset_after (p : RetryPolicy) (asks : List Ask) : (p.after asks).reset = p.reset := by
  induction asks using List.reverseRecOn with
  | nil => rfl
  | append_singleton asks a ih => rw [after_concat, reset_heed, ih]

theorem reset_ofRules (rules : List (Nat × RetryRule)) : (ofRules rules).reset = ofRules rules := by
  have hfull : ofRules rules = ⟨(CodeTable.ofList rules).map fun x => (x.1, .full x.2)⟩ :=
    congrArg RetryPolicy.mk (CodeTable.ofList_map Budget.full rules)
  rw [hfull]
  simp [RetryPolicy.reset, Budget.full]

/-! What a budget counts. -/

/-- The attempts counted after `n` calls: the first connection, and each call that was granted. -/
def attemptsAfter (r : RetryRule) (code : Nat) : Nat → Nat
  | 0 => 1
  | n + 1 => attemptsAfter r code n + if grants r code (n + 1) then 1 else 0

theorem attemptsAfter_eq (r : RetryRule) {code : Nat} (hcode : code ≠ 3000 ∧ code ≠ 3003) (n : Nat) :
    attemptsAfter r code n = 1 + min n (r.max - 1) := by
  induction n with
  | zero => simp [attemptsAfter]
  | succ n ih =>
    rw [attemptsAfter, ih]
    simp only [grants, hcode.1, hcode.2, ne_eq, not_false_eq_true, true_and, decide_eq_true_eq]
    split_ifs <;> omega

theorem attemptsAfter_bounds (r : RetryRule) (code n : Nat) :
    1 ≤ attemptsAfter r code n ∧ attemptsAfter r code n ≤ max 1 r.max := by
  by_cases hcode : code ≠ 3000 ∧ code ≠ 3003
  · rw [attemptsAfter_eq r hcode]
    omega
  · induction n with
    | zero => exact ⟨le_rfl, Nat.le_max_left ..⟩
    | succ n ih =>
      have hrefused : grants r code (n + 1) = false := by
        rw [grants, decide_eq_false_iff_not]
        exact fun h => hcode ⟨h.1, h.2.1⟩
      rwa [attemptsAfter, hrefused, if_neg Bool.false_ne_true, Nat.add_zero]

variable {p : RetryPolicy} {code : Nat}

theorem mem_final_iff : code ∈ CloseCode.final ↔ ¬ (code ≠ 3000 ∧ code ≠ 3003) := by
  simp only [CloseCode.final, CloseCode.duplicateConnection, CloseCode.kicked, List.mem_cons, List.not_mem_nil,
    or_false]
  omega

theorem retry_of_missing (h : p.budget? code = .none) : p.retry code = (.none, p) := by
  rw [RetryPolicy.retry, h]
  split_ifs <;> rfl

/-- The budget of a code, after `n` calls for it, answers the next. -/
theorem retry_of_counted {r : RetryRule} {n : Nat} (h : p.budget? code = some ⟨r, attemptsAfter r code n⟩) :
    p.retry code =
      if grants r code (n + 1) then (some (r.delay (n + 1)), p.update code Budget.spend) else (.none, p) := by
  rw [RetryPolicy.retry, h]
  by_cases hcode : code ≠ 3000 ∧ code ≠ 3003
  · have hfinal : ¬ CloseCode.final.contains code := by
      rw [List.contains_iff_mem, mem_final_iff]
      exact not_not.2 hcode
    have hgrants : grants r code (n + 1) = decide (n + 1 < r.max) := by simp [grants, hcode.1, hcode.2]
    rw [if_neg hfinal, hgrants]
    simp only [Budget.exhausted, attemptsAfter_eq r hcode, Budget.delay_eq, decide_eq_true_eq]
    by_cases hleft : n + 1 < r.max
    · rw [if_neg (by omega), if_pos hleft, Nat.min_eq_left (by omega), Nat.add_comm 1]
    · rw [if_pos (by omega), if_neg hleft]
  · have hfinal : CloseCode.final.contains code := by rwa [List.contains_iff_mem, mem_final_iff]
    have hrefused : ¬ grants r code (n + 1) := by
      rw [grants, decide_eq_true_eq]
      exact fun h => hcode ⟨h.1, h.2.1⟩
    rw [if_pos hfinal, if_neg hrefused]

theorem budget?_retry_of_ne {c : Nat} (hc : c ≠ code) : (p.retry code).2.budget? c = p.budget? c := by
  rcases h : p.retry code with ⟨_ | delay, q⟩
  · rw [eq_of_retry_none h]
  · rw [(of_retry_some h).2.1, budget?_update, Option.map_congr fun _ _ => if_neg hc, Option.map_id']

/-- The budgets are those of the rules, each as far spent as the calls for its code have it. -/
def Counts (p : RetryPolicy) (rule? : Nat → Option RetryRule) (tally : Nat → Nat) : Prop :=
  ∀ code, p.budget? code = (rule? code).map fun r => ⟨r, attemptsAfter r code (tally code)⟩

variable {rule? : Nat → Option RetryRule} {tally : Nat → Nat}

theorem Counts.answers (h : p.Counts rule? tally) (code : Nat) :
    (p.retry code).1 = answer rule? code (tally code + 1) := by
  have hb := h code
  cases hr : rule? code with
  | none =>
    rw [hr, Option.map_none] at hb
    rw [retry_of_missing hb, answer, hr]
    rfl
  | some r =>
    rw [hr, Option.map_some] at hb
    rw [retry_of_counted hb, answer, hr, Option.filter_some]
    split_ifs <;> rfl

theorem Counts.reset (h : p.Counts rule? tally) : p.reset.Counts rule? fun _ => 0 := by
  intro code
  rw [budget?_reset, h code, Option.map_map]
  rfl

/-- The count goes on with each call, granted or not. -/
theorem Counts.retry (h : p.Counts rule? tally) (code : Nat) :
    (p.retry code).2.Counts rule? fun c => tally c + if code = c then 1 else 0 := by
  intro c
  by_cases hc : code = c
  · subst hc
    have hb := h code
    simp only [if_true]
    cases hr : rule? code with
    | none =>
      rw [hr, Option.map_none] at hb
      rw [retry_of_missing hb, hb, Option.map_none]
    | some r =>
      rw [hr, Option.map_some] at hb
      rw [retry_of_counted hb, Option.map_some, attemptsAfter]
      split_ifs
      · rw [budget?_update, hb, Option.map_some, if_pos rfl]
        rfl
      · exact hb
  · rw [budget?_retry_of_ne (Ne.symm hc), h c]
    simp only [if_neg hc, Nat.add_zero]

theorem Counts.after (h : p.Counts rule? fun _ => 0) (asks : List Ask) :
    (p.after asks).Counts rule? fun code => Ask.tally code asks := by
  induction asks using List.reverseRecOn with
  | nil => exact h
  | append_singleton asks a ih =>
    rw [after_concat]
    cases a with
    | reset =>
      simp only [Ask.tally_reset]
      exact ih.reset
    | retry code =>
      simp only [Ask.tally_retry]
      exact ih.retry code

theorem Counts.rations (h : p.Counts rule? fun _ => 0) (hreset : p.reset = p) : p.Rations rule? where
  answers asks code := (h.after asks).answers code
  refusal asks code hnone := eq_of_retry_none (Prod.ext hnone rfl)
  apart asks code := by
    rw [(h.after asks).answers, (h.after (asks.filter _)).answers, Ask.tally_filter]
  attempts asks code b hb := by
    rw [h.after asks code, Option.map_eq_some_iff] at hb
    obtain ⟨r, hr, rfl⟩ := hb
    have hbounds := attemptsAfter_bounds r code (Ask.tally code asks)
    refine ⟨hr, hbounds.1, hbounds.2, fun hmax => ?_⟩
    have hone : 1 < UInt32.size := by decide
    exact hbounds.2.trans_lt (max_lt hone hmax)
  reset asks := by rw [reset_after, hreset]

/-- Each code has its ration: its rule, the number of the call and nothing else decide what is answered. This holds
of the rules that settings keep, and of any list of rules, in which the last one for a code counts. -/
theorem retries_are_rationed :
    (∀ rules : List (Nat × RetryRule), (ofRules rules).Rations fun code => rules.reverse.lookup code) ∧
      ∀ s : Settings, (ofSettings s).Rations s.rule? := by
  have hrules (rules : List (Nat × RetryRule)) : (ofRules rules).Rations fun code => rules.reverse.lookup code :=
    Counts.rations (budget?_ofRules rules) (reset_ofRules rules)
  exact ⟨hrules, fun s => hrules (s.retries.filter fun r => s.allows r.1)⟩

example : ((ofRules [(1006, ⟨3, [100, 200]⟩)]).after [.retry 1006, .retry 4000]).retry 1006 =
    (some 200, ⟨[(1006, ⟨⟨3, [100, 200]⟩, 3⟩)]⟩) := by decide

end RetryPolicy

end ChatWire
