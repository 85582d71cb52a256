import ChatWire.Bytes.Basic
import Mathlib.Tactic

/-! The bytes of a text, character by character: one byte below 128 for a character of ASCII, bytes from
128 on for any other. -/

namespace ChatWire.Text

open String (utf8EncodeChar)

/-- the UTF-8 form of some characters -/
def utf8 (l : List Char) : Bytes := l.flatMap utf8EncodeChar

@[simp] theorem utf8_nil : utf8 [] = [] := rfl

theorem utf8_cons (c : Char) (l : List Char) : utf8 (c :: l) = utf8EncodeChar c ++ utf8 l := rfl

@[simp] theorem utf8_append (l m : List Char) : utf8 (l ++ m) = utf8 l ++ utf8 m := List.flatMap_append

theorem toBytes_ofList (l : List Char) : toBytes (String.ofList l) = utf8 l := by
  simp [toBytes, String.toByteArray_ofList, List.utf8Encode, utf8]

theorem toBytes_append (s t : String) : toBytes (s ++ t) = toBytes s ++ toBytes t := by
  simp [toBytes, String.toByteArray_append]

theorem toBytes_eq_utf8 (s : String) : toBytes s = utf8 s.toList := by
  rw [← toBytes_ofList, String.ofList_toList]

theorem utf8EncodeChar_ascii {c : Char} (h : c.toNat < 128) : utf8EncodeChar c = [UInt8.ofNat c.toNat] := by
  have hc : c.utf8Size = 1 := by
    rw [Char.utf8Size_eq_one_iff, UInt32.le_iff_toNat_le]
    exact Nat.le_of_lt_succ h
  rw [String.utf8EncodeChar_eq_singleton hc, ← UInt8.ofNat_uInt32ToNat]
  rfl

theorem toNat_charOfNat {n : Nat} (h : n < 0xd800) : (Char.ofNat n).toNat = n := by
  unfold Char.ofNat
  rw [dif_pos (Or.inl h)]
  rfl

theorem utf8_of_ascii {l : List Char} (h : ∀ c ∈ l, c.toNat < 128) : utf8 l = l.map fun c => UInt8.ofNat c.toNat := by
  induction l with
  | nil => rfl
  | cons c r ih =>
    rw [utf8_cons, utf8EncodeChar_ascii (h c (List.mem_cons_self ..)),
      ih fun d hd => h d (List.mem_cons_of_mem _ hd), List.map_cons, List.singleton_append]

/-- No byte of a character outside ASCII is taken for one of ASCII. -/
theorem le_of_mem_utf8EncodeChar {c : Char} (h : 128 ≤ c.toNat) : ∀ b ∈ utf8EncodeChar c, 128 ≤ b.toNat := by
  have hor (x m : UInt8) (hm : 128 ≤ m.toNat) : 128 ≤ (x ||| m).toNat := by
    rw [UInt8.toNat_or]
    exact hm.trans Nat.right_le_or
  rw [String.utf8EncodeChar_eq_utf8EncodeCharFast]
  have hc : ¬ c.val ≤ 0x7f := by
    rw [UInt32.le_iff_toNat_le]
    exact Nat.not_le.2 h
  unfold String.utf8EncodeCharFast
  simp only [hc, if_false]
  split_ifs <;> intro b hb <;> simp only [List.mem_cons, List.not_mem_nil, or_false] at hb
  · rcases hb with rfl | rfl <;> exact hor _ _ (by decide)
  · rcases hb with rfl | rfl | rfl <;> exact hor _ _ (by decide)
  · rcases hb with rfl | rfl | rfl | rfl <;> exact hor _ _ (by decide)

/-- A byte of ASCII stands for a character of its own. -/
theorem exists_of_mem_utf8 {l : List Char} {b : UInt8} (hb : b.toNat < 128) (h : b ∈ utf8 l) :
    ∃ c ∈ l, b = UInt8.ofNat c.toNat ∧ c.toNat = b.toNat := by
  obtain ⟨c, hc, hbc⟩ := List.mem_flatMap.1 h
  have hlt : c.toNat < 128 := by
    by_contra hge
    have := le_of_mem_utf8EncodeChar (Nat.not_lt.1 hge) b hbc
    omega
  rw [utf8EncodeChar_ascii hlt, List.mem_singleton] at hbc
  have hnat : c.toNat = b.toNat := by
    rw [hbc, UInt8.toNat_ofNat_of_lt' (by simp only [UInt8.size]; omega)]
  exact ⟨c, hc, hbc, hnat⟩

/-- the character of a byte of ASCII -/
theorem utf8EncodeChar_ofNat {b : UInt8} (h : b.toNat < 128) : utf8EncodeChar (Char.ofNat b.toNat) = [b] := by
  have hv : (Char.ofNat b.toNat).toNat = b.toNat := toNat_charOfNat (by omega)
  rw [utf8EncodeChar_ascii (by omega), hv, UInt8.ofNat_toNat]

/-- Bytes of ASCII spell the text of their characters. -/
theorem toBytes_ofList_map {b : Bytes} (h : ∀ x ∈ b, x.toNat < 128) :
    toBytes (String.ofList (b.map fun x => Char.ofNat x.toNat)) = b := by
  rw [toBytes_ofList]
  induction b with
  | nil => rfl
  | cons x r ih =>
    rw [List.map_cons, utf8_cons, utf8EncodeChar_ofNat (h x (List.mem_cons_self ..)),
      ih fun y hy => h y (List.mem_cons_of_mem _ hy), List.singleton_append]

end ChatWire.Text
