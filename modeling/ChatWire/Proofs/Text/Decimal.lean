import ChatWire.Bytes.Basic
import ChatWire.Text.Decimal
import Mathlib.Tactic

/-! Numbers in decimal notation: a number has a text of its own, which is made of digits, and is read back from it. -/

namespace ChatWire.Decimal

theorem toString_injective : Function.Injective (toString : Nat → String) := by
  intro m n h
  rw [Nat.toString_eq_repr, Nat.toString_eq_repr, Nat.repr_eq_ofList_toDigits, Nat.repr_eq_ofList_toDigits] at h
  calc
    m = Nat.ofDigitChars 10 (Nat.toDigits 10 m) 0 := Nat.ofDigitChars_ten_toDigits.symm
    _ = Nat.ofDigitChars 10 (Nat.toDigits 10 n) 0 := by rw [String.ofList_injective h]
    _ = n := Nat.ofDigitChars_ten_toDigits

/-- What is no digit does not occur in a number. -/
theorem not_mem_toString {c : Char} (h : ¬ c.isDigit) (n : Nat) : c ∉ (toString n).toList := by
  intro hc
  rw [Nat.toString_eq_repr, Nat.toList_repr] at hc
  exact h (Nat.isDigit_of_mem_toDigits (by decide) (by decide) hc)

theorem int_toString_ne (m n : Nat) : toString (m : Int) ≠ toString (Int.negSucc n) := by
  intro h
  have htext : toString m = "-" ++ toString (n + 1) := h
  refine not_mem_toString (by decide : ¬ '-'.isDigit) m ?_
  rw [htext, String.toList_append]
  exact List.mem_cons_self ..

/-- A sign tells numbers below zero apart. -/
theorem int_toString_injective : Function.Injective (toString : Int → String) := by
  intro m n h
  cases m with
  | ofNat m =>
    cases n with
    | ofNat n => exact congrArg _ (toString_injective h)
    | negSucc n => exact absurd h (int_toString_ne m n)
  | negSucc m =>
    cases n with
    | ofNat n => exact absurd h.symm (int_toString_ne n m)
    | negSucc n =>
      have htext : "-" ++ toString (m + 1) = "-" ++ toString (n + 1) := h
      exact congrArg _ (Nat.succ.inj (toString_injective ((String.append_right_inj "-").1 htext)))

theorem not_isBlank_of_isDigit {c : Char} (h : c.isDigit) : ¬ Text.isBlank c := by
  simp only [Char.isDigit, Bool.and_eq_true, decide_eq_true_eq, UInt32.le_iff_toNat_le] at h
  have hlow : 48 ≤ c.toNat := h.1
  have hhigh : c.toNat ≤ 57 := h.2
  simp only [Text.isBlank, Bool.or_eq_true, Bool.and_eq_true, decide_eq_true_eq, beq_iff_eq]
  omega

/-- There is no white space in a number. -/
theorem not_isBlank_int_toString {n : Int} : ∀ c ∈ (toString n).toList, ¬ Text.isBlank c := by
  have hnat (n : Nat) : ∀ c ∈ (toString n).toList, ¬ Text.isBlank c := by
    intro c hc
    by_cases hdigit : c.isDigit
    · exact not_isBlank_of_isDigit hdigit
    · exact absurd hc (not_mem_toString hdigit n)
  cases n with
  | ofNat n => exact hnat n
  | negSucc n =>
    have htext : toString (Int.negSucc n) = "-" ++ toString (n + 1) := rfl
    rw [htext, String.toList_append]
    exact List.forall_mem_append.2 ⟨List.forall_mem_singleton.2 (by decide), hnat (n + 1)⟩

/-! Numbers read back. -/

theorem natChars?_toDigits (n : Nat) : natChars? (Nat.toDigits 10 n) = some n := by
  have hdigits : ∀ c ∈ Nat.toDigits 10 n, isDigit c := by
    intro c hc
    have hdigit := Nat.isDigit_of_mem_toDigits (by decide) (by decide) hc
    simp only [Char.isDigit, Bool.and_eq_true, decide_eq_true_eq] at hdigit
    simp only [isDigit, Bool.and_eq_true, decide_eq_true_eq]
    exact hdigit
  have hvalue : (Nat.toDigits 10 n).foldl (fun n c => n * 10 + (c.toNat - 48)) 0 = n := by
    refine Eq.trans ?_ (Nat.ofDigitChars_ten_toDigits (n := n))
    simp only [Nat.ofDigitChars, Nat.mul_comm 10]
    rfl
  have hread : ¬ ((Nat.toDigits 10 n).isEmpty ∨ !(Nat.toDigits 10 n).all isDigit) := by
    simp [Nat.toDigits_ne_nil, List.all_eq_true.2 hdigits]
  rw [natChars?, if_neg hread, hvalue]

/-- What a digit begins is read as a number without a sign. -/
theorem intChars?_toDigits (n : Nat) : intChars? (Nat.toDigits 10 n) = some (n : Int) := by
  have hsign {c : Char} {r : List Char} (hc : ¬ c.isDigit) : Nat.toDigits 10 n ≠ c :: r := by
    intro heq
    have hmem : c ∈ Nat.toDigits 10 n := heq ▸ List.mem_cons_self ..
    exact hc (Nat.isDigit_of_mem_toDigits (by decide) (by decide) hmem)
  rw [intChars?.eq_def]
  split
  · next heq => exact absurd heq (hsign (by decide))
  · next heq => exact absurd heq (hsign (by decide))
  · rw [natChars?_toDigits]
    rfl

theorem int64?_toString {n : Int} (h : isInt64 n) : int64? (toString n) = some n := by
  have hread : intChars? (toString n).toList = some n := by
    cases n with
    | ofNat n =>
      have htext : (toString (Int.ofNat n)).toList = Nat.toDigits 10 n := Nat.toList_repr
      rw [htext, intChars?_toDigits]
      rfl
    | negSucc n =>
      have htext : toString (Int.negSucc n) = "-" ++ toString (n + 1) := rfl
      have hdigits : (toString (Int.negSucc n)).toList = '-' :: Nat.toDigits 10 (n + 1) := by
        rw [htext, String.toList_append, Nat.toString_eq_repr, Nat.toList_repr]
        rfl
      rw [hdigits, intChars?, natChars?_toDigits]
      rfl
  rw [int64?, hread, Option.filter_some, if_pos h]

end ChatWire.Decimal
