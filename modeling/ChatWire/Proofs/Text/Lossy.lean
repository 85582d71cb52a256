import ChatWire.Proofs.Text.Utf8
import ChatWire.Text.Lossy

/-! Bytes that are the UTF-8 form of a text: nothing in them is replaced. -/

namespace ChatWire.Text

open String (utf8EncodeChar)

theorem character_utf8EncodeChar (c : Char) : character (utf8EncodeChar c) = c := by
  have hbytes : utf8EncodeChar c = toBytes (String.ofList [c]) := by
    rw [toBytes_ofList, utf8_cons, utf8_nil, List.append_nil]
  rw [character, hbytes, ofBytes?_toBytes]
  simp

theorem tailLength_ofNat {n : Nat} (h : n < 256) :
    tailLength (UInt8.ofNat n) =
      if n < 0x80 then some 0
      else if 0xc2 ≤ n ∧ n ≤ 0xdf then some 1
      else if 0xe0 ≤ n ∧ n ≤ 0xef then some 2
      else if 0xf0 ≤ n ∧ n ≤ 0xf4 then some 3
      else none := by
  simp only [tailLength, UInt8.lt_iff_toNat_lt, UInt8.le_iff_toNat_le, UInt8.toNat_ofNat_of_lt' h]
  rfl

/-- a byte, given as a number, that may stand in a character after the first -/
def IsTail (n : Nat) : Prop := 0x80 ≤ n ∧ n ≤ 0xbf

theorem IsTail.isTail {n : Nat} (h : IsTail n) : isTail (UInt8.ofNat n) := by
  have hn : n < 256 := by have := h.2; omega
  simp only [Text.isTail, UInt8.le_iff_toNat_le, UInt8.toNat_ofNat_of_lt' hn, Bool.and_eq_true, decide_eq_true_eq]
  exact h

/-- The second byte keeps out what has a shorter form, halves of pairs, and numbers that are too great. -/
theorem IsTail.isSecond {a b : Nat} (h : IsTail b) (ha : a < 256) (he0 : a = 0xe0 → 0xa0 ≤ b)
    (hed : a = 0xed → b ≤ 0x9f) (hf0 : a = 0xf0 → 0x90 ≤ b) (hf4 : a = 0xf4 → b ≤ 0x8f) :
    isSecond (UInt8.ofNat a) (UInt8.ofNat b) := by
  have hb : b < 256 := by have := h.2; omega
  have heq (x : UInt8) : UInt8.ofNat a = x ↔ a = x.toNat := by
    rw [← UInt8.toNat_inj, UInt8.toNat_ofNat_of_lt' ha]
  obtain ⟨hlow, hhigh⟩ := h
  unfold Text.isSecond secondRange
  simp only [heq]
  split_ifs with h1 h2 h3 h4 <;>
    simp only [UInt8.le_iff_toNat_le, UInt8.toNat_ofNat_of_lt' hb, Bool.and_eq_true, decide_eq_true_eq]
  · exact ⟨he0 h1, hhigh⟩
  · exact ⟨hlow, hed h2⟩
  · exact ⟨hf0 h3, hhigh⟩
  · exact ⟨hlow, hf4 h4⟩
  · exact ⟨hlow, hhigh⟩

/-! Characters of one to four bytes. -/

section Steps

variable {a b c d : UInt8}

theorem lossyChars_one (ha : tailLength a = some 0) (r : Bytes) :
    lossyChars (a :: r) = Char.ofNat a.toNat :: lossyChars r := by
  cases r with
  | nil =>
    have hlt : a < 0x80 := by
      by_contra hge
      rw [tailLength, if_neg hge] at ha
      split_ifs at ha <;> cases ha
    simp only [lossyChars, hlt, if_true]
  | cons b r =>
    rw [lossyChars.eq_def]
    simp only [ha]

theorem lossyChars_two (ha : tailLength a = some 1) (hb : isSecond a b) (r : Bytes) :
    lossyChars (a :: b :: r) = character [a, b] :: lossyChars r := by
  rw [lossyChars.eq_def]
  simp only [ha, hb, if_true]

theorem lossyChars_three (ha : tailLength a = some 2) (hb : isSecond a b) (hc : isTail c) (r : Bytes) :
    lossyChars (a :: b :: c :: r) = character [a, b, c] :: lossyChars r := by
  rw [lossyChars.eq_def]
  simp only [ha, hb, hc, if_true]

theorem lossyChars_four (ha : tailLength a = some 3) (hb : isSecond a b) (hc : isTail c) (hd : isTail d) (r : Bytes) :
    lossyChars (a :: b :: c :: d :: r) = character [a, b, c, d] :: lossyChars r := by
  rw [lossyChars.eq_def]
  simp only [ha, hb, hc, hd, if_true]

end Steps

/-- The bytes of a character are taken together. -/
theorem lossyChars_utf8EncodeChar (c : Char) (r : Bytes) :
    lossyChars (utf8EncodeChar c ++ r) = c :: lossyChars r := by
  have hchar := character_utf8EncodeChar c
  have hvalid : c.val.toNat < 0xd800 ∨ 0xdfff < c.val.toNat ∧ c.val.toNat < 0x110000 := c.valid
  unfold utf8EncodeChar at hchar ⊢
  simp only at hchar ⊢
  have hof : Char.ofNat c.val.toNat = c := Char.ofNat_toNat c
  generalize c.val.toNat = v at hchar hvalid hof ⊢
  -- a character is told apart by how great its number is, as when it was encoded
  split_ifs at hchar ⊢ with h1 h2 h3
  · have hn : (UInt8.ofNat v).toNat = v := UInt8.toNat_ofNat_of_lt' (by simp only [UInt8.size]; omega)
    rw [List.singleton_append, lossyChars_one (by rw [tailLength_ofNat (by omega), if_pos (by omega)]), hn, hof]
  · have hb : IsTail (v % 64 + 128) := by simp only [IsTail]; omega
    have ha : tailLength (UInt8.ofNat (v / 64 % 32 + 192)) = some 1 := by
      rw [tailLength_ofNat (by omega), if_neg (by omega), if_pos (by omega)]
    refine (lossyChars_two ha (hb.isSecond ?_ ?_ ?_ ?_ ?_) r).trans (by rw [hchar]) <;> omega
  · have hb : IsTail (v / 64 % 64 + 128) := by simp only [IsTail]; omega
    have hc : IsTail (v % 64 + 128) := by simp only [IsTail]; omega
    have ha : tailLength (UInt8.ofNat (v / 4096 % 16 + 224)) = some 2 := by
      rw [tailLength_ofNat (by omega), if_neg (by omega), if_neg (by omega), if_pos (by omega)]
    refine (lossyChars_three ha (hb.isSecond ?_ ?_ ?_ ?_ ?_) hc.isTail r).trans (by rw [hchar]) <;> omega
  · have hb : IsTail (v / 4096 % 64 + 128) := by simp only [IsTail]; omega
    have hc : IsTail (v / 64 % 64 + 128) := by simp only [IsTail]; omega
    have hd : IsTail (v % 64 + 128) := by simp only [IsTail]; omega
    have ha : tailLength (UInt8.ofNat (v / 262144 % 8 + 240)) = some 3 := by
      rw [tailLength_ofNat (by omega), if_neg (by omega), if_neg (by omega), if_neg (by omega), if_pos (by omega)]
    refine (lossyChars_four ha (hb.isSecond ?_ ?_ ?_ ?_ ?_) hc.isTail hd.isTail r).trans (by rw [hchar]) <;> omega

theorem lossyChars_utf8 (l : List Char) : lossyChars (utf8 l) = l := by
  induction l with
  | nil => rfl
  | cons c l ih => rw [utf8_cons, lossyChars_utf8EncodeChar, ih]

/-- The bytes of a text are taken for that text. -/
theorem lossy_toBytes (s : String) : lossy (toBytes s) = s := by
  rw [lossy, toBytes_eq_utf8, lossyChars_utf8, String.ofList_toList]

end ChatWire.Text
