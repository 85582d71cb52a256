import ChatWire.Mailbox.Bell
import ChatWire.Proofs.Numbered

/-! The bell, and those who stand at it. Whoever goes away hands a ring of its own on; so no ring is lost as long as
somebody waits. -/

namespace ChatWire

namespace Bell

variable {b : Bell} {id x : Nat}

/-- all who have come to the bell and not gone away, those who were woken first -/
def line (b : Bell) : List Nat := b.rung.map Prod.fst ++ b.waiting

/-- how many have been woken alone -/
def owed (b : Bell) : Nat := b.rung.countP fun r => r.2 == .one

@[simp] theorem line_ringOne (b : Bell) : b.ringOne.line = b.line := by
  unfold ringOne line
  cases b.waiting <;> simp

@[simp] theorem line_ringAll (b : Bell) : b.ringAll.line = b.line := by
  simp [ringAll, line, Function.comp_def]

theorem line_join (h : b.kept → b.waiting = []) : (b.join id).line = b.line ++ [id] := by
  unfold join line
  split
  · next hkept => simp [h hkept]
  · simp

theorem line_leave (id : Nat) (b : Bell) : (b.leave id).line = b.line.filter (· != id) := by
  have hleft : line { b with waiting := b.waiting.filter (· != id), rung := b.rung.filter fun r => r.1 != id } =
      b.line.filter (· != id) := by
    rw [line, line, List.filter_append, List.filter_map]
    rfl
  unfold leave
  split
  · rw [line_ringOne, hleft]
  · exact hleft

theorem line_heed (h : id ∉ b.waiting) : (b.heed id).line = b.line.filter (· != id) := by
  have hwaiting : b.waiting.filter (· != id) = b.waiting := by
    rw [List.filter_eq_self]
    intro x hx
    rw [bne_iff_ne]
    rintro rfl
    exact h hx
  rw [line, line, List.filter_append, List.filter_map, hwaiting]
  rfl

theorem mem_waiting_ringOne (h : x ∈ b.ringOne.waiting) : x ∈ b.waiting := by
  unfold ringOne at h
  split at h
  · exact h
  · next hwaiting => exact hwaiting ▸ List.mem_cons_of_mem _ h

theorem mem_waiting_leave (h : x ∈ (b.leave id).waiting) : x ∈ b.waiting ∧ x ≠ id := by
  have hleft : x ∈ b.waiting.filter (· != id) := by
    unfold leave at h
    split at h
    · exact mem_waiting_ringOne h
    · exact h
  simpa using hleft

/-- Ringing for one wakes one, if there is somebody to wake. -/
theorem owed_ringOne (h : b.waiting ≠ []) : b.ringOne.owed = b.owed + 1 := by
  unfold ringOne owed
  split
  · next hnil => exact absurd hnil h
  · simp [List.countP_append]

/-- Who goes away hands a ring of its own on to the next who waits. -/
theorem owed_leave (h : b.line.Nodup) (hx : x ∈ (b.leave id).waiting) : b.owed ≤ (b.leave id).owed := by
  have hkeys : (b.rung.map Prod.fst).Nodup := h.of_append_left
  have hcount := Numbered.countP_without hkeys id fun r => r.2 == .one
  unfold leave at hx ⊢
  split at hx
  · next hring =>
    rw [if_pos hring]
    have hne := List.ne_nil_of_mem (mem_waiting_ringOne hx)
    rw [owed_ringOne hne]
    split_ifs at hcount <;> exact hcount.ge.trans (by simp [owed])
  · next hring =>
    rw [if_neg hring]
    have hnone : (b.rung.lookup id).any (fun r => r == .one) = false := by
      rw [Bool.eq_false_iff, Ne, Option.any_eq_true]
      rintro ⟨r, hr, hone⟩
      rw [beq_iff_eq.1 hone] at hr
      exact hring (List.contains_iff_mem.2 (Numbered.mem_of_lookup hr))
    rw [if_neg (by simpa using hnone)] at hcount
    exact hcount.ge

theorem owed_heed (h : b.line.Nodup) : b.owed ≤ (b.heed id).owed + 1 := by
  have hkeys : (b.rung.map Prod.fst).Nodup := h.of_append_left
  have hcount := Numbered.countP_without hkeys id fun r => r.2 == .one
  simp only [owed, heed]
  split_ifs at hcount <;> omega

theorem kept_ringOne (h : b.kept → b.waiting = []) (hkept : b.ringOne.kept) : b.ringOne.waiting = [] := by
  unfold ringOne at hkept ⊢
  split at hkept
  · next hnil => exact hnil
  · next hcons => exact absurd (h hkept) (by simp [hcons])

theorem kept_leave (h : b.kept → b.waiting = []) (hkept : (b.leave id).kept) : (b.leave id).waiting = [] := by
  have hleft (hkept : b.kept) : b.waiting.filter (· != id) = [] := by rw [h hkept, List.filter_nil]
  unfold leave at hkept ⊢
  split at hkept
  · next hring =>
    rw [if_pos hring]
    exact kept_ringOne hleft hkept
  · next hring =>
    rw [if_neg hring]
    exact hleft hkept

theorem isRung_iff : b.isRung id ↔ id ∈ b.rung.map Prod.fst := by
  simp [isRung]

end Bell

end ChatWire
