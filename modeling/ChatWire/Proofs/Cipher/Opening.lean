import ChatWire.Proofs.Bytes.Canonical
import ChatWire.Proofs.Cipher.Cbc

/-! What can be opened under a key is what is sealed under it. There is one text for each plaintext, but for the
white space around it, and under a key of no legal length there is none. -/

namespace ChatWire.Cbc

open Aes (Block)

theorem chain_unchain {f g : Block → Block} (h : ∀ b, f (g b) = b) (prev : Block) (bs : List Block) :
    chain f prev (unchain g prev bs) = bs := by
  induction bs generalizing prev with
  | nil => rfl
  | cons c r ih => simp [chain, unchain, h, ih, Block.xor_xor_cancel]

theorem key_eq_error {k : Bytes} (hk : ¬ (k.length = 16 ∨ k.length = 24 ∨ k.length = 32)) :
    key k = .error (.keyLength k.length) := by
  rw [key, Aes.Key.ofBytes?_eq_none hk]

theorem encrypt_eq_error {k : Bytes} (hk : ¬ (k.length = 16 ∨ k.length = 24 ∨ k.length = 32)) (p : Bytes) :
    encrypt k p = .error (.keyLength k.length) := by
  rw [encrypt, Padding.add_eq (by decide), key_eq_error hk]
  rfl

/-- What decrypts is whole blocks, under a key of a legal length. -/
theorem of_decrypt {k c p : Bytes} (h : decrypt k c = .ok p) :
    c.length % Aes.blockSize = 0 ∧ ∃ l, key k = .ok l ∧
      Padding.strip Aes.blockSize (Aes.ofBlocks (unchain l.schedule.decrypt .zero (Aes.toBlocks c))) = .ok p := by
  simp only [decrypt] at h
  split_ifs at h with hshape
  · cases h
  · exact ⟨not_not.1 (not_or.1 hshape).2, bind_eq_ok_iff.1 h⟩

theorem decrypt_eq_ok_iff (k : Aes.Key) {c p : Bytes} : decrypt k.bytes c = .ok p ↔ c = sealWith k p := by
  refine ⟨fun h => ?_, fun hc => hc ▸ decrypt_sealWith k p⟩
  obtain ⟨hwhole, l, hkey, hstrip⟩ := of_decrypt h
  obtain rfl : k = l := Except.ok.inj ((key_of_legal k).symm.trans hkey)
  rw [Padding.strip_eq_ok_iff (by decide)] at hstrip
  calc c = Aes.ofBlocks (Aes.toBlocks c) := (Aes.ofBlocks_toBlocks hwhole).symm
    _ = Aes.ofBlocks (chain k.schedule.encrypt .zero (unchain k.schedule.decrypt .zero (Aes.toBlocks c))) := by
      rw [chain_unchain k.schedule.encrypt_decrypt]
    _ = sealWith k p := by rw [sealWith, ← hstrip, Aes.toBlocks_ofBlocks]

theorem readBase64_eq_ok_iff {text : String} {b : Bytes} : readBase64 text = .ok b ↔ Text.trim text = Base64.encode b := by
  rw [readBase64, mapError_eq_ok_iff, Base64.decode_strict_iff]

theorem decryptText_eq_ok_iff (k : Aes.Key) {text : String} {p : Bytes} :
    decryptText k.bytes text = .ok p ↔ Text.trim text = Base64.encode (sealWith k p) := by
  simp only [decryptText, bind_eq_ok_iff, decrypt_eq_ok_iff, exists_eq_right, readBase64_eq_ok_iff]

theorem bytes_of_key {b : Bytes} {k : Aes.Key} (h : key b = .ok k) : k.bytes = b := by
  by_cases hb : b.length = 16 ∨ b.length = 24 ∨ b.length = 32
  · rw [← Except.ok.inj ((key_of_legal ⟨b, hb⟩).symm.trans h)]
  · rw [key_eq_error hb] at h
    cases h

/-- Only a key of a legal length opens anything. -/
theorem exists_of_decryptText {b p : Bytes} {text : String} (h : decryptText b text = .ok p) :
    ∃ k : Aes.Key, k.bytes = b ∧ Text.trim text = Base64.encode (sealWith k p) := by
  obtain ⟨c, -, hc⟩ := bind_eq_ok_iff.1 h
  obtain ⟨-, k, hk, -⟩ := of_decrypt hc
  obtain rfl := bytes_of_key hk
  exact ⟨k, rfl, (decryptText_eq_ok_iff k).1 h⟩

/-- Sealing under a key of a legal length takes each plaintext to one text, and those are all the texts that can be
opened, up to white space around them. Under any other key nothing is sealed, and nothing can be opened. -/
theorem opens_what_it_seals (k : Bytes) :
    (k.length = 16 ∨ k.length = 24 ∨ k.length = 32 → ∀ p, ∃ c,
        encryptText k p .base64 = .ok (Base64.encode c) ∧ encryptText k p .hex = .ok (Hex.encode c) ∧
          decryptText k (Base64.encode c) = .ok p ∧
          ∀ text, decryptText k text = .ok p ↔ Text.trim text = Base64.encode c) ∧
      (¬ (k.length = 16 ∨ k.length = 24 ∨ k.length = 32) → ∀ p,
        (∀ form, encryptText k p form = .error (.keyLength k.length)) ∧ ∀ text, decryptText k text ≠ .ok p) := by
  constructor
  · intro hk p
    exact ⟨sealWith ⟨k, hk⟩ p, encryptText_eq ⟨k, hk⟩ p .base64, encryptText_eq ⟨k, hk⟩ p .hex,
      decryptText_encode_sealWith ⟨k, hk⟩ p, fun _ => decryptText_eq_ok_iff ⟨k, hk⟩⟩
  · intro hk p
    constructor
    · intro form
      rw [encryptText, encrypt_eq_error hk]
      rfl
    · intro text h
      obtain ⟨l, rfl, -⟩ := exists_of_decryptText h
      exact hk l.legal

/-- a plaintext of one whole block under a key of 24 bytes, and under one of 15 -/
theorem opens_what_it_seals_block :
    let k : Bytes := List.replicate 24 9
    let p : Bytes := List.replicate 16 7
    (∃ c, encryptText k p .base64 = .ok (Base64.encode c) ∧ encryptText k p .hex = .ok (Hex.encode c) ∧
        decryptText k (Base64.encode c) = .ok p ∧
        ∀ text, decryptText k text = .ok p ↔ Text.trim text = Base64.encode c) ∧
      (∀ form, encryptText (k.take 15) p form = .error (.keyLength 15)) ∧
      ∀ text, decryptText (k.take 15) text ≠ .ok p := by
  intro k p
  exact ⟨(opens_what_it_seals k).1 (by decide) p, (opens_what_it_seals (k.take 15)).2 (by decide) p⟩

end ChatWire.Cbc
