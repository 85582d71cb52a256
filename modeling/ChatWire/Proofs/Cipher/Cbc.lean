import ChatWire.Cipher.Cbc
import ChatWire.Proofs.Bytes.Base64
import ChatWire.Proofs.Cipher.Aes
import ChatWire.Proofs.Cipher.Padding

/-! What is sealed under a key can be opened under it, also when it is written down in base64. Texts that begin alike
have seals that begin alike: the chain runs one way. -/

namespace ChatWire

namespace Aes

theorem Word.toBytes_ofBytes {b : Bytes} (h : 4 ≤ b.length) : (Word.ofBytes b).toBytes = b.take 4 := by
  match b, h with
  | w :: x :: y :: z :: r, _ => rfl

theorem Block.toBytes_ofBytes {b : Bytes} (h : 16 ≤ b.length) : (Block.ofBytes b).toBytes = b.take 16 := by
  have hword (n : Nat) (hn : n + 4 ≤ 16) : (Word.ofBytes (b.drop n)).toBytes = (b.drop n).take 4 :=
    Word.toBytes_ofBytes (by rw [List.length_drop]; omega)
  have h0 : (Word.ofBytes b).toBytes = b.take 4 := Word.toBytes_ofBytes (by omega)
  simp only [Block.toBytes, Block.ofBytes, h0, hword 4 (by decide), hword 8 (by decide), hword 12 (by decide)]
  rw [← List.take_add, ← List.take_add, ← List.take_add]

theorem Block.ofBytes_toBytes_append (b : Block) (r : Bytes) : Block.ofBytes (b.toBytes ++ r) = b := rfl

theorem Block.ofBytes_take {n : Nat} (hn : 16 ≤ n) (b : Bytes) : Block.ofBytes (b.take n) = Block.ofBytes b := by
  have hget (i : Nat) (hi : i < 16) : (b.take n)[i]? = b[i]? := by
    rw [List.getElem?_take, if_pos (by omega)]
  simp [Block.ofBytes, Word.ofBytes, hget]

theorem toBlocks_nil : toBlocks [] = [] := by
  rw [toBlocks]
  rfl

theorem toBlocks_of_ne_nil {b : Bytes} (h : b ≠ []) :
    toBlocks b = Block.ofBytes b :: toBlocks (b.drop 16) := by
  conv_lhs => rw [toBlocks]
  rw [if_neg (by simpa using h)]

theorem toBlocks_ofBlocks (bs : List Block) : toBlocks (ofBlocks bs) = bs := by
  induction bs with
  | nil => exact toBlocks_nil
  | cons b r ih =>
    have hsplit : ofBlocks (b :: r) = b.toBytes ++ ofBlocks r := List.flatMap_cons
    have hne : b.toBytes ++ ofBlocks r ≠ [] := by simp [Block.toBytes, Word.toBytes]
    rw [hsplit, toBlocks_of_ne_nil hne, Block.ofBytes_toBytes_append, List.drop_left' b.length_toBytes, ih]

/-- Whole blocks are cut without filling anything up. -/
theorem ofBlocks_toBlocks {b : Bytes} (h : b.length % blockSize = 0) : ofBlocks (toBlocks b) = b := by
  fun_induction toBlocks b with
  | case1 b hb => rw [List.isEmpty_iff.1 hb]; rfl
  | case2 b hb ih =>
    have hpos : 0 < b.length := List.length_pos_of_ne_nil (by simpa using hb)
    have h16 : b.length % 16 = 0 := h
    have hrest : (b.drop 16).length % blockSize = 0 := by
      rw [List.length_drop, blockSize]
      omega
    have hsplit : ofBlocks (Block.ofBytes b :: toBlocks (b.drop 16)) =
        (Block.ofBytes b).toBytes ++ ofBlocks (toBlocks (b.drop 16)) := List.flatMap_cons
    rw [hsplit, ih hrest, Block.toBytes_ofBytes (by omega), List.take_append_drop]

theorem take_toBlocks (n : Nat) (b : Bytes) : (toBlocks b).take n = toBlocks (b.take (blockSize * n)) := by
  induction n generalizing b with
  | zero => rw [Nat.mul_zero, List.take_zero, List.take_zero, toBlocks_nil]
  | succ n ih =>
    by_cases hb : b = []
    case pos => rw [hb, List.take_nil, toBlocks_nil, List.take_nil]
    have hsize : blockSize * (n + 1) = 16 + blockSize * n := by
      rw [blockSize]
      omega
    have htake : b.take (blockSize * (n + 1)) ≠ [] := by simp [hsize, hb]
    have hfirst : Block.ofBytes (b.take (blockSize * (n + 1))) = Block.ofBytes b := Block.ofBytes_take (by omega) b
    rw [toBlocks_of_ne_nil hb, toBlocks_of_ne_nil htake, List.take_succ_cons, ih, hfirst, hsize, List.drop_take,
      Nat.add_sub_cancel_left]

theorem take_ofBlocks (n : Nat) (bs : List Block) : (ofBlocks bs).take (blockSize * n) = ofBlocks (bs.take n) := by
  induction n generalizing bs with
  | zero => rfl
  | succ n ih =>
    cases bs with
    | nil => simp [ofBlocks]
    | cons b r =>
      have hsplit : ofBlocks (b :: r) = b.toBytes ++ ofBlocks r := List.flatMap_cons
      have hsize : blockSize * (n + 1) = b.toBytes.length + blockSize * n := by
        rw [b.length_toBytes, blockSize]
        omega
      rw [hsplit, hsize, List.take_length_add_append, ih]
      rfl

theorem length_ofBlocks (bs : List Block) : (ofBlocks bs).length = blockSize * bs.length := by
  rw [ofBlocks, List.length_flatMap]
  simp [blockSize, Nat.mul_comm]

end Aes

namespace Cbc

open Aes (Block)

theorem length_chain (f : Block → Block) (prev : Block) (bs : List Block) :
    (chain f prev bs).length = bs.length := by
  induction bs generalizing prev with
  | nil => rfl
  | cons b r ih => rw [chain, List.length_cons, List.length_cons, ih]

theorem key_of_legal (k : Aes.Key) : key k.bytes = .ok k := by
  rw [key, Aes.Key.ofBytes?_bytes]

/-- The ciphertext of `p` under a key that is fit for use. -/
def sealWith (k : Aes.Key) (p : Bytes) : Bytes :=
  Aes.ofBlocks (chain k.schedule.encrypt .zero (Aes.toBlocks (Padding.padded Aes.blockSize p)))

theorem encrypt_eq (k : Aes.Key) (p : Bytes) : encrypt k.bytes p = .ok (sealWith k p) := by
  rw [encrypt, Padding.add_eq (by decide), key_of_legal]
  rfl

theorem length_sealWith (k : Aes.Key) (p : Bytes) :
    (sealWith k p).length = Aes.blockSize * (p.length / Aes.blockSize + 1) := by
  have hpadded : (Padding.padded Aes.blockSize p).length = Aes.blockSize * (p.length / Aes.blockSize + 1) :=
    Padding.length_padded (by decide) p
  have hblocks : (Aes.ofBlocks (Aes.toBlocks (Padding.padded Aes.blockSize p))).length =
      (Padding.padded Aes.blockSize p).length := by
    rw [Aes.ofBlocks_toBlocks (by rw [hpadded, Nat.mul_mod_right])]
  rw [sealWith, Aes.length_ofBlocks, length_chain, ← Aes.length_ofBlocks, hblocks, hpadded]

theorem decrypt_sealWith (k : Aes.Key) (p : Bytes) : decrypt k.bytes (sealWith k p) = .ok p := by
  have hlen := length_sealWith k p
  have hwhole : (sealWith k p).length % Aes.blockSize = 0 := by rw [hlen, Nat.mul_mod_right]
  have hne : sealWith k p ≠ [] := by
    apply List.ne_nil_of_length_pos
    rw [hlen]
    exact Nat.mul_pos (by decide) (Nat.succ_pos _)
  have hpadded : (Padding.padded Aes.blockSize p).length % Aes.blockSize = 0 := by
    rw [Padding.length_padded (by decide), Nat.mul_mod_right]
  have hopen : Aes.ofBlocks (unchain k.schedule.decrypt .zero (Aes.toBlocks (sealWith k p))) =
      Padding.padded Aes.blockSize p := by
    rw [sealWith, Aes.toBlocks_ofBlocks, unchain_chain k.schedule.decrypt_encrypt, Aes.ofBlocks_toBlocks hpadded]
  have hguard : ¬ ((sealWith k p).isEmpty ∨ (sealWith k p).length % Aes.blockSize ≠ 0) := by simp [hne, hwhole]
  rw [decrypt, if_neg hguard, key_of_legal]
  show Padding.strip Aes.blockSize _ = _
  rw [hopen, Padding.strip_padded (by decide)]

theorem sealWith_injective (k : Aes.Key) : Function.Injective (sealWith k) := by
  intro p q h
  have hp := decrypt_sealWith k p
  rw [h, decrypt_sealWith] at hp
  exact (Except.ok.inj hp).symm

theorem take_chain (f : Block → Block) (n : Nat) (prev : Block) (bs : List Block) :
    (chain f prev bs).take n = chain f prev (bs.take n) := by
  induction bs generalizing n prev with
  | nil => simp [chain]
  | cons b r ih => cases n <;> simp [chain, ih]

/-- The first blocks of a ciphertext are the ciphertext of the first blocks. -/
theorem take_sealWith (k : Aes.Key) {n : Nat} {p : Bytes} (h : Aes.blockSize * n ≤ p.length) :
    (sealWith k p).take (Aes.blockSize * n) =
      Aes.ofBlocks (chain k.schedule.encrypt .zero (Aes.toBlocks (p.take (Aes.blockSize * n)))) := by
  have hfirst : (Padding.padded Aes.blockSize p).take (Aes.blockSize * n) = p.take (Aes.blockSize * n) := by
    rw [Padding.padded, List.take_append_of_le_length h]
  rw [sealWith, Aes.take_ofBlocks, take_chain, Aes.take_toBlocks, hfirst]

/-- Texts that agree on their first blocks have ciphertexts that do. -/
theorem take_sealWith_eq (k : Aes.Key) {n : Nat} {p q : Bytes}
    (h : p.take (Aes.blockSize * n) = q.take (Aes.blockSize * n)) :
    (sealWith k p).take (Aes.blockSize * n) = (sealWith k q).take (Aes.blockSize * n) := by
  have hlen := congrArg List.length h
  rw [List.length_take, List.length_take] at hlen
  by_cases hp : Aes.blockSize * n ≤ p.length
  · rw [take_sealWith k hp, take_sealWith k (by omega), h]
  · -- one that is shorter is the whole of what they agree on
    rw [List.take_of_length_le (by omega), List.take_of_length_le (by omega)] at h
    rw [h]

theorem readBase64_encode (b : Bytes) : readBase64 (Base64.encode b) = .ok b := by
  rw [readBase64, Base64.trim_encode, Base64.decode_encode]
  rfl

theorem encryptText_eq (k : Aes.Key) (p : Bytes) (form : Encoding) :
    encryptText k.bytes p form = .ok (form.write (sealWith k p)) := by
  rw [encryptText, encrypt_eq]
  rfl

theorem decryptText_encode_sealWith (k : Aes.Key) (p : Bytes) :
    decryptText k.bytes (Base64.encode (sealWith k p)) = .ok p := by
  rw [decryptText, readBase64_encode]
  exact decrypt_sealWith k p

end Cbc

end ChatWire
