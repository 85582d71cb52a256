import ChatWire.Bytes.Hex
import Mathlib.Tactic

/-! Hexadecimal texts in upper case. They hold nothing but the sixteen digits, spell one byte string each, and
begin as what they spell begins. -/

namespace ChatWire.Hex

/-- the digits in which tokens and digests are written -/
def upperDigits : List Char :=
  ['0', '1', '2', '3', '4', '5', '6', '7', '8', '9', 'A', 'B', 'C', 'D', 'E', 'F']

theorem upperDigit_mem : ∀ n < 16, upperDigit n ∈ upperDigits := by decide

theorem toNat_lt_of_mem_upperDigits : ∀ c ∈ upperDigits, c.toNat < 128 := by simp [upperDigits]

theorem encodeUpperChars_subset (b : Bytes) : encodeUpperChars b ⊆ upperDigits := by
  intro c hc
  obtain ⟨x, -, hx⟩ := List.mem_flatMap.1 hc
  have hlt := x.toNat_lt
  simp only [List.mem_cons, List.not_mem_nil, or_false] at hx
  rcases hx with rfl | rfl
  · exact upperDigit_mem _ (by omega)
  · exact upperDigit_mem _ (by omega)

theorem encodeUpperChars_cons (x : UInt8) (b : Bytes) :
    encodeUpperChars (x :: b) = upperDigit (x.toNat / 16) :: upperDigit (x.toNat % 16) :: encodeUpperChars b := rfl

theorem toList_encodeUpper (b : Bytes) : (encodeUpper b).toList = encodeUpperChars b := String.toList_ofList

theorem toUpper_digit : ∀ n < 16, (digit n).toUpper = upperDigit n := by decide

/-- The digits of either case are the same but for their case. -/
theorem toUpper_encode (b : Bytes) : (encode b).toUpper = encodeUpper b := by
  apply String.toList_injective
  rw [toList_encodeUpper, String.toUpper, String.toList_map, encode, String.toList_ofList]
  induction b with
  | nil => rfl
  | cons x b ih =>
    have hlt := x.toNat_lt
    have hcons : encodeChars (x :: b) = digit (x.toNat / 16) :: digit (x.toNat % 16) :: encodeChars b := rfl
    rw [hcons, encodeUpperChars_cons, List.map_cons, List.map_cons, ih, toUpper_digit _ (by omega),
      toUpper_digit _ (by omega)]

theorem value?_upperDigit : ∀ n < 16, value? (upperDigit n) = some n := by decide

theorem decode?_encodeUpper (b : Bytes) : decode? (encodeUpper b) = some b := by
  rw [decode?, toList_encodeUpper]
  induction b with
  | nil => rfl
  | cons x b ih =>
    have hlt := x.toNat_lt
    have hbyte : 16 * (x.toNat / 16) + x.toNat % 16 = x.toNat := Nat.div_add_mod ..
    rw [encodeUpperChars_cons, decodeChars?, value?_upperDigit _ (by omega), value?_upperDigit _ (by omega), ih]
    show some (UInt8.ofNat (16 * (x.toNat / 16) + x.toNat % 16) :: b) = _
    rw [hbyte, UInt8.ofNat_toNat]

theorem encodeUpper_injective : Function.Injective encodeUpper := by
  intro a b h
  have ha := decode?_encodeUpper a
  rw [h, decode?_encodeUpper] at ha
  exact (Option.some.inj ha).symm

theorem take_encodeUpperChars (n : Nat) (b : Bytes) :
    (encodeUpperChars b).take (2 * n) = encodeUpperChars (b.take n) := by
  induction n generalizing b with
  | zero => rfl
  | succ n ih =>
    cases b with
    | nil => rfl
    | cons x b =>
      rw [encodeUpperChars_cons, Nat.mul_succ, List.take_succ_cons, List.take_succ_cons, ih, List.take_succ_cons,
        encodeUpperChars_cons]

end ChatWire.Hex
