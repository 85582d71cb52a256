import ChatWire.Cipher.Cbc
import ChatWire.Proofs.Cipher.Opening
import ChatWire.Proofs.Text.Percent

/-! What is sealed under the secret key of a session can be opened under it, escaped or not, and nothing else can.
The secret alone decides whether anything can be sealed. -/

namespace ChatWire.SecretText

variable {secret : String} {k : Aes.Key}

theorem encode_eq (hk : Cbc.readBase64 secret = .ok k.bytes) (plaintext : String) :
    encode secret plaintext = .ok (Base64.encode (Cbc.sealWith k (Text.toBytes plaintext))) := by
  rw [encode, hk]
  exact Cbc.encryptText_eq k _ .base64

theorem decode_of_trim (hk : Cbc.readBase64 secret = .ok k.bytes) {plaintext plain escaped : String}
    (hp : Percent.decode? escaped = some plain)
    (ht : Text.trim plain = Base64.encode (Cbc.sealWith k (Text.toBytes plaintext))) :
    decode secret escaped = .ok plaintext := by
  rw [decode, hk]
  simp only [bind, Except.bind, hp, (Cbc.decryptText_eq_ok_iff k).2 ht, Text.ofBytes?_toBytes]
  rfl

theorem decode_of_escaped (hk : Cbc.readBase64 secret = .ok k.bytes) {plaintext sealed escaped : String}
    (hs : encode secret plaintext = .ok sealed) (he : Percent.Escaped escaped sealed) :
    decode secret escaped = .ok plaintext := by
  rw [encode_eq hk] at hs
  cases hs
  exact decode_of_trim hk (Percent.decode?_of_escaped he) (Base64.trim_encode _)

/-- There is nothing to escape in a sealed text. -/
theorem escaped_self (hk : Cbc.readBase64 secret = .ok k.bytes) {plaintext sealed : String}
    (hs : encode secret plaintext = .ok sealed) : Percent.Escaped sealed sealed := by
  rw [encode_eq hk] at hs
  cases hs
  exact .refl (Base64.percent_not_mem_encode _)

/-- What is opened is what stands, without its escapes and the white space around it, for a seal of the text. -/
theorem exists_of_decode {plaintext escaped : String} (h : decode secret escaped = .ok plaintext) :
    ∃ k : Aes.Key, Cbc.readBase64 secret = .ok k.bytes ∧ ∃ plain, Percent.decode? escaped = some plain ∧
      Text.trim plain = Base64.encode (Cbc.sealWith k (Text.toBytes plaintext)) := by
  obtain ⟨b, hb, h⟩ := bind_eq_ok_iff.1 h
  cases hplain : Percent.decode? escaped with
  | none => rw [hplain] at h; cases h
  | some plain =>
    rw [hplain] at h
    obtain ⟨bytes, hbytes, h⟩ := bind_eq_ok_iff.1 h
    cases htext : Text.ofBytes? bytes with
    | none => rw [htext] at h; cases h
    | some text =>
      rw [htext] at h
      obtain rfl : text = plaintext := Except.ok.inj h
      obtain ⟨k, rfl, htrim⟩ := Cbc.exists_of_decryptText hbytes
      exact ⟨k, hb, plain, rfl, (Text.ofBytes?_eq_some_iff.1 htext) ▸ htrim⟩

/-- A key that cannot be read, or is of no legal length, is reported whatever there is to seal. -/
theorem encode_cases (secret : String) :
    (∃ k : Aes.Key, Cbc.readBase64 secret = .ok k.bytes) ∨ ∃ e, ∀ plaintext, encode secret plaintext = .error e := by
  cases hb : Cbc.readBase64 secret with
  | error e =>
    refine .inr ⟨e, fun plaintext => ?_⟩
    rw [encode, hb]
    rfl
  | ok b =>
    by_cases hlegal : b.length = 16 ∨ b.length = 24 ∨ b.length = 32
    · exact .inl ⟨⟨b, hlegal⟩, rfl⟩
    · refine .inr ⟨.keyLength b.length, fun plaintext => ?_⟩
      rw [encode, hb]
      show Cbc.encryptText b _ .base64 = _
      rw [Cbc.encryptText, Cbc.encrypt_eq_error hlegal]
      rfl

/-- With a secret that spells a key, every text can be sealed, and is what comes out of its seal, whatever of it is
escaped and whatever white space is around it. With any secret, all texts can be sealed or none, for one reason,
and what is opened was sealed. -/
theorem seals_come_back (secret : String) :
    (∀ b : Bytes, b.length = 16 ∨ b.length = 24 ∨ b.length = 32 → Text.trim secret = Base64.encode b →
        ∀ plaintext, ∃ sealed, encode secret plaintext = .ok sealed ∧ decode secret sealed = .ok plaintext ∧
          (∀ escaped, Percent.Escaped escaped sealed → decode secret escaped = .ok plaintext) ∧
          ∀ escaped plain, Percent.decode? escaped = some plain → Text.trim plain = sealed →
            decode secret escaped = .ok plaintext) ∧
      ((∀ plaintext, ∃ sealed, encode secret plaintext = .ok sealed) ∨
        ∃ e, ∀ plaintext, encode secret plaintext = .error e) ∧
      ∀ escaped plaintext, decode secret escaped = .ok plaintext →
        ∃ plain, Percent.decode? escaped = some plain ∧ encode secret plaintext = .ok (Text.trim plain) := by
  refine ⟨fun b hb hsecret plaintext => ?_, ?_, fun escaped plaintext h => ?_⟩
  · have hk : Cbc.readBase64 secret = .ok (Aes.Key.mk b hb).bytes := Cbc.readBase64_eq_ok_iff.2 hsecret
    have hs := encode_eq hk plaintext
    exact ⟨_, hs, decode_of_escaped hk hs (escaped_self hk hs), fun _ he => decode_of_escaped hk hs he,
      fun _ _ hp ht => decode_of_trim hk hp ht⟩
  · rcases encode_cases secret with ⟨k, hk⟩ | he
    · exact .inl fun plaintext => ⟨_, encode_eq hk plaintext⟩
    · exact .inr he
  · obtain ⟨k, hk, plain, hp, ht⟩ := exists_of_decode h
    exact ⟨plain, hp, by rw [ht, encode_eq hk]⟩

/-- a secret between white space, and a seal of which everything is escaped -/
theorem seals_come_back_escaped :
    let secret := "\tAwMDAwMDAwMDAwMDAwMDAw== "
    let plaintext := "plain, 100 %\n"
    ∃ sealed, encode secret plaintext = .ok sealed ∧
      decode secret (Percent.encode (fun _ => true) sealed) = .ok plaintext ∧
      ∃ plain, Percent.decode? (Percent.encode (fun _ => true) sealed) = some plain ∧
        encode secret plaintext = .ok (Text.trim plain) := by
  intro secret plaintext
  have hsecret : Text.trim secret = Base64.encode (List.replicate 16 3) := by decide +kernel
  obtain ⟨hopen, -, honly⟩ := seals_come_back secret
  obtain ⟨sealed, hs, -, hescaped, -⟩ := hopen (List.replicate 16 3) (by decide) hsecret plaintext
  have hdecode : decode secret (Percent.encode (fun _ => true) sealed) = .ok plaintext :=
    hescaped _ (Percent.escaped_encode rfl sealed)
  exact ⟨sealed, hs, hdecode, honly _ _ hdecode⟩

end ChatWire.SecretText
