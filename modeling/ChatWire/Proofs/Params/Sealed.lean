import ChatWire.Proofs.Params.Sealer
import ChatWire.Proofs.Params.Signature

/-! A sealed request explains itself: from its parameters alone, whoever receives it derives the key, checks
the signature and opens the body. -/

namespace ChatWire

theorem RequestKey.ne_empty_of_isExtension {s : String} (h : isExtension s) : s ≠ "" := by
  rintro rfl
  exact absurd h (by decide)

namespace SealedRequest

/-- What the parameters of a request are good for by themselves. -/
structure ExplainsItself (r : SealedRequest) (extension call : String) (body : Json) : Prop where
  names : r.params.map Prod.fst = ["client_version", "enc_ver", "params", "signkey", "type", "zcid", "zcid_ext"]
  /-- all the others are signed, in whatever order they are taken -/
  signature : ∀ others : List (String × String), others.Perm (r.params.filter fun p => p.1 ≠ "signkey") →
    r.params.lookup "signkey" = some (Signature.sign call others)
  /-- the token and the extension among them give the key -/
  key : ∃ token, r.params.lookup "zcid_ext" = some extension ∧ r.params.lookup "zcid" = some token ∧
    RequestKey.derive extension token = .ok r.key
  /-- under the key, the sealed one opens to the body, byte for byte -/
  body : ∃ sealed, r.params.lookup "params" = some sealed ∧
    Cbc.decryptText (Text.toBytes r.key) sealed = .ok (Text.toBytes body.render)

/-- For a device with all its identifiers and an extension as it is drawn, a request is made for every body
and every call, and explains itself. -/
theorem make_explains_itself (device : Device) (apiVersion : Nat) (extension : String) (body : Json)
    (call : String) (htype : 0 < device.apiType) (himei : device.imei ≠ "") (hlaunch : 0 < device.launch)
    (hext : RequestKey.isExtension extension) :
    ∃ r, make device apiVersion extension body call = .ok r ∧ r.ExplainsItself extension call body := by
  have hdevice := (Device.missing?_eq_none_iff device).2 ⟨htype, himei, hlaunch⟩
  obtain ⟨token, key, hsealer, hderive, hfit⟩ :=
    Sealer.exists_make hdevice (RequestKey.ne_empty_of_isExtension hext)
  obtain ⟨sealed, hbody, hopen⟩ := Sealer.exists_sealBody (s := ⟨token, extension, key⟩) hfit body
  let signed := [("client_version", toString apiVersion), ("enc_ver", "v2"), ("params", sealed),
    ("type", toString device.apiType), ("zcid", token), ("zcid_ext", extension)]
  let params := [("client_version", toString apiVersion), ("enc_ver", "v2"), ("params", sealed),
    ("signkey", Signature.sign call signed), ("type", toString device.apiType), ("zcid", token),
    ("zcid_ext", extension)]
  have hmake : make device apiVersion extension body call = .ok ⟨params, key⟩ := by
    rw [make, hsealer]
    show (Sealer.sealBody ⟨token, extension, key⟩ body >>= fun sealed => pure _) = _
    rw [hbody]
    rfl
  have hothers : (params.filter fun p => p.1 ≠ "signkey") = signed := by simp [params, signed]
  have hnames : (signed.map Prod.fst).Nodup := by simp [signed]
  have hsignature (others : List (String × String)) (h : others.Perm (params.filter fun p => p.1 ≠ "signkey")) :
      params.lookup "signkey" = some (Signature.sign call others) := by
    rw [hothers] at h
    rw [Signature.sign_eq_of_perm call h hnames]
    rfl
  exact ⟨_, hmake, rfl, hsignature, ⟨token, rfl, rfl, hderive⟩, ⟨sealed, rfl, hopen⟩⟩

theorem make_explains_itself_login :
    let device : Device := ⟨30, "c6a5c1e0-3b0f", 1700000000000⟩
    let body : Json := .obj [("imei", .str "日本")]
    0 < device.apiType ∧ device.imei ≠ "" ∧ 0 < device.launch ∧ RequestKey.isExtension "00ab9f" ∧
      ∃ r, make device 671 "00ab9f" body "getlogininfo" = .ok r ∧
        r.ExplainsItself "00ab9f" "getlogininfo" body :=
  ⟨by decide, by decide, by decide, by decide,
    make_explains_itself ⟨30, "c6a5c1e0-3b0f", 1700000000000⟩ 671 "00ab9f" (.obj [("imei", .str "日本")])
      "getlogininfo" (by decide) (by decide) (by decide) (by decide)⟩

end SealedRequest

end ChatWire
