import ChatWire.Cipher.Gcm
import Mathlib.Tactic

/-! Opening inverts sealing, and nothing else can be opened. Adding the key stream twice gives back the
text; the tag depends on the ciphertext alone. -/

namespace ChatWire

namespace Bytes

@[simp] theorem length_xor (a b : Bytes) : (xor a b).length = min a.length b.length := by simp [xor]

theorem xor_xor_cancel (a b : Bytes) (h : a.length ≤ b.length) : xor (xor a b) b = a := by
  induction a generalizing b with
  | nil => simp [xor]
  | cons x a ih =>
    cases b with
    | nil => simp at h
    | cons y b =>
      have htail := ih b (by simpa using h)
      simp only [xor, List.zipWith_cons_cons, List.cons.injEq] at htail ⊢
      exact ⟨by rw [UInt8.xor_assoc, UInt8.xor_self, UInt8.xor_zero], htail⟩

end Bytes

namespace Gcm

open Aes (Block)

theorem mask_nil (f : Block → Block) (c : Block) : mask f c [] = [] := by
  rw [mask]
  rfl

theorem mask_of_ne_nil (f : Block → Block) (c : Block) {t : Bytes} (h : t ≠ []) :
    mask f c t = Bytes.xor (t.take 16) (f c).toBytes ++ mask f (nextCounter c) (t.drop 16) := by
  conv_lhs => rw [mask]
  rw [if_neg (by simpa using h)]

theorem length_mask (f : Block → Block) (c : Block) (t : Bytes) : (mask f c t).length = t.length := by
  fun_induction mask f c t with
  | case1 c t h => simp_all
  | case2 c t h ih =>
    rw [List.length_append, ih, Bytes.length_xor, Block.length_toBytes, List.length_take, List.length_drop]
    omega

theorem mask_mask (f : Block → Block) (c : Block) (t : Bytes) : mask f c (mask f c t) = t := by
  fun_induction mask f c t with
  | case1 c t h => rw [mask_nil, List.isEmpty_iff.1 h]
  | case2 c t h ih =>
    have ht : t ≠ [] := by simpa using h
    have hpos := List.length_pos_of_ne_nil ht
    set first := Bytes.xor (t.take 16) (f c).toBytes
    set rest := mask f (nextCounter c) (t.drop 16)
    have hfirst : first.length = min 16 t.length := by
      simp only [first, Bytes.length_xor, Block.length_toBytes, List.length_take]
      omega
    have hrest : rest.length = t.length - 16 := by rw [length_mask, List.length_drop]
    have hne : first ++ rest ≠ [] := List.ne_nil_of_length_pos (by rw [List.length_append]; omega)
    -- either the first block is whole, or nothing follows it
    have hsplit : (first ++ rest).take 16 = first ∧ (first ++ rest).drop 16 = rest := by
      rcases Nat.lt_or_ge t.length 16 with hlt | hge
      · have hnil : rest = [] := List.eq_nil_of_length_eq_zero (by omega)
        rw [hnil, List.append_nil]
        exact ⟨List.take_of_length_le (by omega), List.drop_eq_nil_of_le (by omega)⟩
      · exact ⟨List.take_left' (by omega), List.drop_left' (by omega)⟩
    rw [mask_of_ne_nil f c hne, hsplit.1, hsplit.2, ih,
      Bytes.xor_xor_cancel _ _ (by rw [List.length_take, Block.length_toBytes]; omega), List.take_append_drop]

theorem length_tag (f : Block → Block) (h : BitVec 128) (c : Block) (aad t : Bytes) :
    (tag f h c aad t).length = tagSize := rfl

theorem length_sealWith (k : Aes.Key) (nonce aad p : Bytes) :
    (sealWith k nonce aad p).length = p.length + tagSize := by
  simp only [sealWith, List.length_append, length_mask, length_tag]

/-- What can be opened is just what was sealed. -/
theorem openWith?_eq_some_iff (k : Aes.Key) (nonce aad s p : Bytes) :
    openWith? k nonce aad s = some p ↔ s = sealWith k nonce aad p := by
  constructor
  · intro h
    simp only [openWith?] at h
    split_ifs at h with hlen htag
    rw [← Option.some.inj h]
    simp only [sealWith, mask_mask, htag, List.take_append_drop]
  · rintro rfl
    have hlen := length_sealWith k nonce aad p
    rcases hprep : prepare k nonce with ⟨f, h, counter⟩
    simp only [openWith?, sealWith, hprep] at hlen ⊢
    set c := mask f (nextCounter counter) p with hc
    have hsize : (c ++ tag f h counter aad c).length - tagSize = c.length := by
      rw [hlen, hc, length_mask, Nat.add_sub_cancel]
    rw [if_neg (by omega), hsize, List.take_left, List.drop_left, if_pos rfl, hc, mask_mask]

theorem decrypt_sealWith (k : Aes.Key) {nonce : Bytes} (hn : nonce.length = nonceSize) (aad p : Bytes) :
    decrypt k.bytes nonce aad (sealWith k nonce aad p) = .ok p := by
  have hopen := (openWith?_eq_some_iff k nonce aad _ p).2 rfl
  simp [decrypt, hn, Aes.Key.ofBytes?_bytes, hopen]

end Gcm

end ChatWire
