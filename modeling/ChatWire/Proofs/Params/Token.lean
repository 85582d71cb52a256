import ChatWire.Params.Token
import ChatWire.Proofs.Bytes.Canonical
import ChatWire.Proofs.Bytes.Hex
import ChatWire.Proofs.Cipher.Cbc
import ChatWire.Proofs.Text.Decimal

/-! Device tokens. A device has a token if it has all its identifiers; the token opens to the text of the device, and
the text belongs to no other device. -/

namespace ChatWire.Device

/-- the fixed key of all tokens -/
def tokenCipherKey : Aes.Key := ⟨Text.toBytes tokenKey, by decide⟩

theorem missing?_eq_none_iff (d : Device) : d.missing? = none ↔ 0 < d.apiType ∧ d.imei ≠ "" ∧ 0 < d.launch := by
  unfold missing?
  split_ifs with ht hi hl
  · simp [ht]
  · simp_all
  · simp [hl]
  · simp_all [Nat.pos_iff_ne_zero]

theorem token_eq {d : Device} (h : d.missing? = none) :
    d.token = .ok (Hex.encodeUpper (Cbc.sealWith tokenCipherKey (Text.toBytes d.text))) := by
  have hseal : Cbc.encrypt (Text.toBytes tokenKey) (Text.toBytes d.text) = _ :=
    Cbc.encrypt_eq tokenCipherKey (Text.toBytes d.text)
  rw [token, h, hseal]

theorem token_eq_ok_iff {d : Device} {t : String} :
    d.token = .ok t ↔
      d.missing? = none ∧ t = Hex.encodeUpper (Cbc.sealWith tokenCipherKey (Text.toBytes d.text)) := by
  cases h : d.missing? with
  | some i => simp [token, h]
  | none => simp [token_eq h, eq_comm]

/-! ### Texts of devices -/

theorem takeWhile_append_comma {a : List Char} (ha : ',' ∉ a) (r : List Char) :
    (a ++ ',' :: r).takeWhile (· != ',') = a := by
  rw [List.takeWhile_append_of_pos, List.takeWhile_cons_of_neg (by decide), List.append_nil]
  intro c hc
  rw [bne_iff_ne]
  rintro rfl
  exact ha hc

/-- Where there is no comma before it, a comma has its place. -/
theorem eq_of_append_comma {a b r s : List Char} (ha : ',' ∉ a) (hb : ',' ∉ b) (h : a ++ ',' :: r = b ++ ',' :: s) :
    a = b ∧ r = s := by
  have hfront : a = b := by rw [← takeWhile_append_comma ha r, h, takeWhile_append_comma hb s]
  rw [hfront] at h
  exact ⟨hfront, (List.cons.inj (List.append_cancel_left h)).2⟩

theorem toList_text (d : Device) :
    d.text.toList = (toString d.apiType).toList ++ ',' :: (d.imei.toList ++ ',' :: (toString d.launch).toList) := by
  simp [text]

/-- The first comma ends the type and the last one is before the launch, whatever the number between them holds. -/
theorem eq_of_text_eq {d e : Device} (hd : 0 < d.launch) (he : 0 < e.launch) (h : d.text = e.text) : d = e := by
  obtain ⟨dtype, dimei, dlaunch⟩ := d
  obtain ⟨etype, eimei, elaunch⟩ := e
  lift dlaunch to Nat using hd.le
  lift elaunch to Nat using he.le
  have hcomma (n : Nat) : ',' ∉ (toString n).toList := Decimal.not_mem_toString (by decide) n
  have hchars := congrArg String.toList h
  rw [toList_text, toList_text] at hchars
  obtain ⟨htype, hrest⟩ := eq_of_append_comma (hcomma dtype) (hcomma etype) hchars
  -- from the other end the last comma is the first one
  have hreversed := congrArg List.reverse hrest
  simp only [List.reverse_append, List.reverse_cons, List.append_assoc, List.singleton_append] at hreversed
  have hend (n : Nat) : ',' ∉ (toString n).toList.reverse := List.mem_reverse.not.2 (hcomma n)
  obtain ⟨hlaunch, himei⟩ := eq_of_append_comma (hend dlaunch) (hend elaunch) hreversed
  have htype : dtype = etype := Decimal.toString_injective (String.toList_injective htype)
  have hlaunch : dlaunch = elaunch :=
    Decimal.toString_injective (String.toList_injective (List.reverse_injective hlaunch))
  have himei : dimei = eimei := String.toList_injective (List.reverse_injective himei)
  rw [htype, hlaunch, himei]

/-! ### What a token tells -/

/-- What a token tells of its device. -/
structure Tells (d : Device) (token : String) : Prop where
  digits : token.toList ⊆ Hex.upperDigits
  /-- two digits for each byte of some blocks -/
  size : 0 < token.length ∧ 32 ∣ token.length
  /-- what sealing the text writes down in hexadecimal, in upper case -/
  spelled : ∃ sealed, Cbc.encryptText (Text.toBytes tokenKey) (Text.toBytes d.text) .hex = .ok sealed ∧
    token = sealed.toUpper
  /-- under the fixed key of all tokens, what the digits spell opens to the three identifiers -/
  opens : ∃ b, Hex.decode? token = some b ∧
    Cbc.decryptText (Text.toBytes tokenKey) (Base64.encode b) =
      .ok (Text.toBytes (toString d.apiType ++ "," ++ d.imei ++ "," ++ toString d.launch))

theorem tells_of_token {d : Device} {t : String} (h : d.token = .ok t) : d.Tells t := by
  obtain ⟨-, rfl⟩ := token_eq_ok_iff.1 h
  set sealed := Cbc.sealWith tokenCipherKey (Text.toBytes d.text) with hsealed
  have hlen : (Hex.encodeUpper sealed).length = 32 * ((Text.toBytes d.text).length / 16 + 1) := by
    rw [Hex.encodeUpper, String.length_ofList, Hex.length_encodeUpperChars, hsealed, Cbc.length_sealWith, Aes.blockSize]
    omega
  refine ⟨?_, ⟨by omega, _, hlen⟩, ⟨Hex.encode sealed, ?_, (Hex.toUpper_encode sealed).symm⟩, ⟨sealed, ?_, ?_⟩⟩
  · rw [Hex.toList_encodeUpper]
    exact Hex.encodeUpperChars_subset sealed
  · exact Cbc.encryptText_eq tokenCipherKey _ .hex
  · exact Hex.decode?_encodeUpper sealed
  · exact Cbc.decryptText_encode_sealWith tokenCipherKey _

theorem eq_of_token_eq {d e : Device} {t : String} (hd : d.token = .ok t) (he : e.token = .ok t) : d = e := by
  obtain ⟨hdevice, ht⟩ := token_eq_ok_iff.1 hd
  obtain ⟨hother, ht'⟩ := token_eq_ok_iff.1 he
  have hsealed := Hex.encodeUpper_injective (ht.symm.trans ht')
  have htext := Text.toBytes_injective (Cbc.sealWith_injective tokenCipherKey hsealed)
  exact eq_of_text_eq ((missing?_eq_none_iff d).1 hdevice).2.2 ((missing?_eq_none_iff e).1 hother).2.2 htext

/-- A device has a token just when none of its identifiers is missing; the token opens to them, and no other device
has it. -/
theorem tokens_identify_devices (d : Device) :
    ((∃ t, d.token = .ok t) ↔ 0 < d.apiType ∧ d.imei ≠ "" ∧ 0 < d.launch) ∧
      ∀ t, d.token = .ok t → d.Tells t ∧ ∀ other : Device, other.token = .ok t → other = d := by
  constructor
  · rw [← missing?_eq_none_iff]
    constructor
    · rintro ⟨t, ht⟩
      exact (token_eq_ok_iff.1 ht).1
    · intro h
      exact ⟨_, token_eq h⟩
  · intro t ht
    exact ⟨tells_of_token ht, fun other hother => eq_of_token_eq hother ht⟩

/-- Two devices with the same digits and commas but for one comma, which have different tokens. -/
theorem tokens_identify_devices_comma :
    let d : Device := ⟨30, "7,1", 700⟩
    ∃ t, d.token = .ok t ∧ d.Tells t ∧ Device.token ⟨30, "7", 1700⟩ ≠ .ok t := by
  intro d
  obtain ⟨hiff, htells⟩ := tokens_identify_devices d
  obtain ⟨t, ht⟩ := hiff.2 (by decide)
  obtain ⟨htell, honly⟩ := htells t ht
  refine ⟨t, ht, htell, fun hother => ?_⟩
  exact absurd (honly _ hother) (by decide)

end ChatWire.Device
