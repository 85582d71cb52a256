import ChatWire.Params.Sealed
import ChatWire.Proofs.Params.Key
import ChatWire.Proofs.Params.Token

/-! Sealers. All that can keep one from being made is an identifier that is missing; one that is made has a key that
the cipher takes, and seals whatever it is given. -/

namespace ChatWire.Sealer

/-- A sealer's key is the one that its token and its extension give, and it seals every body. -/
theorem exists_make {device : Device} (hd : device.missing? = none) {extension : String} (he : extension ≠ "") :
    ∃ token key, make device extension = .ok ⟨token, extension, key⟩ ∧
      RequestKey.derive extension token = .ok key ∧ RequestKey.Fit key := by
  have hlong : 12 ≤ (Cbc.sealWith Device.tokenCipherKey (Text.toBytes device.text)).length := by
    rw [Cbc.length_sealWith, Aes.blockSize]
    omega
  obtain ⟨key, hkey, hfit⟩ := RequestKey.exists_derive he hlong
  refine ⟨_, key, ?_, hkey, hfit⟩
  rw [make, Device.token_eq hd]
  show (RequestKey.derive extension _ >>= fun key => pure _) = _
  rw [hkey]
  rfl

theorem exists_sealBody {s : Sealer} (h : RequestKey.Fit s.key) (body : Json) :
    ∃ sealed, s.sealBody body = .ok sealed ∧
      Cbc.decryptText (Text.toBytes s.key) sealed = .ok (Text.toBytes body.render) := by
  obtain ⟨k, hk⟩ := h.exists_cipherKey
  refine ⟨Base64.encode (Cbc.sealWith k (Text.toBytes body.render)), ?_, ?_⟩
  · rw [sealBody, ← hk, Cbc.encryptText_eq]
    rfl
  · rw [← hk, Cbc.decryptText_encode_sealWith]

/-- Whatever is missing is reported as missing. -/
theorem exists_missing {device : Device} {extension : String} (h : ¬ (device.missing? = none ∧ extension ≠ "")) :
    ∃ i, make device extension = .error (.missing i) := by
  cases hd : device.missing? with
  | some i =>
    refine ⟨i, ?_⟩
    rw [make, Device.token, hd]
    rfl
  | none =>
    have hempty : extension = "" := by
      by_contra hne
      exact h ⟨hd, hne⟩
    refine ⟨.extension, ?_⟩
    rw [make, Device.token_eq hd, hempty]
    rfl

/-- A sealer is made just when none of the identifiers is missing, and nothing but a missing one is ever reported: the
digest and the token have the characters that the key takes from them. The key is 32 upper-case digits, and under it
every body is sealed and opens again. -/
theorem sealers_never_fail (device : Device) (extension : String) :
    ((∃ s, make device extension = .ok s) ↔
        0 < device.apiType ∧ device.imei ≠ "" ∧ 0 < device.launch ∧ extension ≠ "") ∧
      (∀ e, make device extension = .error e → ∃ i, e = .missing i) ∧
      8 ≤ (RequestKey.evens (RequestKey.digest extension).toList).length ∧
      ∀ s, make device extension = .ok s →
        s.key.length = 32 ∧ s.key.toList ⊆ Hex.upperDigits ∧ (Text.toBytes s.key).length = 32 ∧
          ∀ body, ∃ sealed, s.sealBody body = .ok sealed ∧
            Cbc.decryptText (Text.toBytes s.key) sealed = .ok (Text.toBytes body.render) := by
  have hpresent : device.missing? = none ∧ extension ≠ "" ↔
      0 < device.apiType ∧ device.imei ≠ "" ∧ 0 < device.launch ∧ extension ≠ "" := by
    rw [Device.missing?_eq_none_iff, and_assoc, and_assoc]
  have hdigest := RequestKey.length_evens_digest extension
  rw [← hpresent]
  by_cases h : device.missing? = none ∧ extension ≠ ""
  · obtain ⟨token, key, hmake, -, hfit⟩ := exists_make h.1 h.2
    rw [hmake]
    refine ⟨⟨fun _ => h, fun _ => ⟨_, rfl⟩⟩, nofun, by omega, ?_⟩
    rintro s hs
    cases hs
    exact ⟨String.length_toList ▸ hfit.length, hfit.digits, hfit.length_toBytes, exists_sealBody hfit⟩
  · obtain ⟨i, hmake⟩ := exists_missing h
    rw [hmake]
    refine ⟨⟨nofun, fun hp => absurd hp h⟩, ?_, by omega, nofun⟩
    rintro e he
    cases he
    exact ⟨i, rfl⟩

/-- a sealer for an identifier and an extension of one character that is not of ASCII, and no sealer without a launch -/
theorem sealers_never_fail_one_character :
    let device : Device := ⟨1, "é", 1⟩
    (∃ s, make device "日" = .ok s ∧ s.key.length = 32 ∧ (Text.toBytes s.key).length = 32 ∧
        ∃ sealed, s.sealBody (.arr [.null, .str "日"]) = .ok sealed ∧
          Cbc.decryptText (Text.toBytes s.key) sealed = .ok (Text.toBytes "[null,\"日\"]")) ∧
      ∃ i, make ⟨1, "é", 0⟩ "日" = .error (.missing i) := by
  intro device
  obtain ⟨hiff, -, -, hmade⟩ := sealers_never_fail device "日"
  obtain ⟨hiff', hreports, -⟩ := sealers_never_fail ⟨1, "é", 0⟩ "日"
  obtain ⟨s, hs⟩ := hiff.2 (by decide)
  obtain ⟨hlen, -, hbytes, hseals⟩ := hmade s hs
  refine ⟨⟨s, hs, hlen, hbytes, ?_⟩, ?_⟩
  · have hrender : (Json.arr [.null, .str "日"]).render = "[null,\"日\"]" := by decide
    obtain ⟨sealed, hsealed, hopen⟩ := hseals (.arr [.null, .str "日"])
    exact ⟨sealed, hsealed, by rw [hopen, hrender]⟩
  · cases hmake : make ⟨1, "é", 0⟩ "日" with
    | ok s => exact absurd (hiff'.1 ⟨s, hmake⟩) (by decide)
    | error e =>
      obtain ⟨i, rfl⟩ := hreports e hmake
      exact ⟨i, rfl⟩

end ChatWire.Sealer
