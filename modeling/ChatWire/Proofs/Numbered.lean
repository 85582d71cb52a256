import ChatWire.Proofs.Table
import Mathlib.Tactic

/-! Lists of pairs that begin with a number, by which the rest is looked up. -/

namespace ChatWire.Numbered

variable {α : Type} {ws : List (Nat × α)}

theorem lookup_cons (c d : Nat) (b : α) (r : List (Nat × α)) :
    ((d, b) :: r).lookup c = if c = d then some b else r.lookup c := by
  by_cases hc : c = d
  · rw [if_pos hc, hc, List.lookup_cons_self]
  · rw [if_neg hc, List.lookup_cons, beq_eq_false_iff_ne.2 hc]

/-- An entry is looked up, then changed in a way that depends on its number. -/
theorem lookup_map {β : Type} (f : Nat → α → β) (c : Nat) (t : List (Nat × α)) :
    (t.map fun x => (x.1, f x.1 x.2)).lookup c = (t.lookup c).map (f c) := by
  induction t with
  | nil => rfl
  | cons x r ih =>
    rw [List.map_cons, lookup_cons, lookup_cons, ih]
    split_ifs with hc
    · rw [hc]
      rfl
    · rfl

theorem mem_of_lookup {c : Nat} {a : α} {t : List (Nat × α)} (h : t.lookup c = some a) : (c, a) ∈ t := by
  obtain ⟨before, after, rfl, -⟩ := List.lookup_eq_some_iff.1 h
  exact List.mem_append_right _ (List.mem_cons_self ..)

/-- Where no number is there twice, an entry is found by its own. -/
theorem lookup_of_mem (h : (ws.map Prod.fst).Nodup) {c : Nat} {a : α} (ha : (c, a) ∈ ws) : ws.lookup c = some a :=
  Table.lookup_of_mem h ha

theorem lookup_append (c d : Nat) (b : α) :
    (ws ++ [(d, b)]).lookup c = (ws.lookup c).or (if c = d then some b else none) := by
  rw [List.lookup_append, lookup_cons]
  rfl

theorem lookup_eq_none {c : Nat} (h : c ∉ ws.map Prod.fst) : ws.lookup c = none := by
  rw [List.lookup_eq_none_iff]
  intro w hw
  rw [bne_iff_ne]
  rintro rfl
  exact h (List.mem_map_of_mem hw)

/-- the list with another entry for number `n` -/
def replace (n : Nat) (b : α) (ws : List (Nat × α)) : List (Nat × α) := ws.map fun w => if w.1 = n then (n, b) else w

theorem lookup_replace (c n : Nat) (b : α) :
    (replace n b ws).lookup c = if c = n then (ws.lookup c).map fun _ => b else ws.lookup c := by
  have hreplace : replace n b ws = ws.map fun w => (w.1, if w.1 = n then b else w.2) := by
    apply List.map_congr_left
    intro w _
    split_ifs with hw
    · rw [hw]
    · rfl
  rw [hreplace, lookup_map fun d a => if d = n then b else a]
  split_ifs with hc
  · rfl
  · exact Option.map_id'

theorem keys_replace (n : Nat) (b : α) : (replace n b ws).map Prod.fst = ws.map Prod.fst := by
  rw [replace, List.map_map]
  apply List.map_congr_left
  intro w _
  by_cases hw : w.1 = n <;> simp [hw]

theorem lookup_without (c n : Nat) :
    (ws.filter fun w => w.1 != n).lookup c = if c = n then none else ws.lookup c := by
  induction ws with
  | nil => simp
  | cons w ws ih =>
    by_cases hw : w.1 = n
    · rw [List.filter_cons_of_neg (by simp [hw]), ih, lookup_cons]
      split_ifs with hc hcw
      · rfl
      · exact absurd (hcw.trans hw) hc
      · rfl
    · rw [List.filter_cons_of_pos (by simp [hw]), lookup_cons, lookup_cons, ih]
      split_ifs with hcw hc
      · exact absurd (hcw.symm.trans hc) hw
      all_goals rfl

/-- How many entries have a property changes by the one that is replaced. -/
theorem countP_replace (h : (ws.map Prod.fst).Nodup) {n : Nat} {a b : α} (ha : ws.lookup n = some a)
    (p : Nat × α → Bool) :
    (replace n b ws).countP p + (if p (n, a) then 1 else 0) = ws.countP p + (if p (n, b) then 1 else 0) := by
  induction ws with
  | nil => cases ha
  | cons w ws ih =>
    obtain ⟨hw, hws⟩ := List.nodup_cons.1 h
    rw [lookup_cons] at ha
    have hcons : replace n b (w :: ws) = (if w.1 = n then (n, b) else w) :: replace n b ws := rfl
    rw [hcons, List.countP_cons, List.countP_cons]
    by_cases hn : n = w.1
    · subst hn
      rw [if_pos rfl] at ha
      have hsame : replace w.1 b ws = ws := by
        refine (List.map_congr_left fun v hv => if_neg ?_).trans (List.map_id' ws)
        intro heq
        exact hw (heq ▸ List.mem_map_of_mem hv)
      rw [hsame, if_pos rfl, ← Option.some.inj ha]
      exact Nat.add_right_comm ..
    · rw [if_neg hn] at ha
      rw [if_neg (Ne.symm hn)]
      have := ih hws ha
      omega

/-- How many entries have a property changes by the one that goes away. -/
theorem countP_without (h : (ws.map Prod.fst).Nodup) (n : Nat) (p : Nat × α → Bool) :
    (ws.filter fun w => w.1 != n).countP p + (if (ws.lookup n).any fun a => p (n, a) then 1 else 0) = ws.countP p := by
  induction ws with
  | nil => rfl
  | cons w ws ih =>
    obtain ⟨hw, hws⟩ := List.nodup_cons.1 h
    rw [lookup_cons, List.countP_cons]
    by_cases hn : n = w.1
    · subst hn
      have hrest : (ws.filter fun v => v.1 != w.1) = ws := by
        rw [List.filter_eq_self]
        intro v hv
        rw [bne_iff_ne]
        intro heq
        exact hw (heq ▸ List.mem_map_of_mem hv)
      rw [List.filter_cons_of_neg (by simp), hrest, if_pos rfl]
      rfl
    · rw [if_neg hn, List.filter_cons_of_pos (by simpa using Ne.symm hn), List.countP_cons]
      have := ih hws
      omega

end ChatWire.Numbered
