import ChatWire.Message.Item
import ChatWire.Envelope.Decode
import ChatWire.Proofs.Bytes.Base64
import ChatWire.Proofs.Cipher.Gcm
import ChatWire.Proofs.Json.Reading
import ChatWire.Proofs.Text.Percent

/-! The packings of a payload. However a value is packed, the same comes out: the value itself, or the batch
that it is taken for. -/

namespace ChatWire

/-- `s` is the text of a buffer in which `k` seals `payload`, with any of its bytes escaped. -/
def Sealed.Holds (s : String) (k : Aes.Key) (payload : Bytes) : Prop :=
  ∃ iv aad t, iv.length = Gcm.nonceSize ∧ aad.length = Sealed.additionalSize ∧ Percent.Escaped s t ∧
    Base64.Written t (iv ++ aad ++ Gcm.sealWith k iv aad payload)

theorem Sealed.openWith_sealWith (k : Aes.Key) {iv aad : Bytes} (hiv : iv.length = Gcm.nonceSize)
    (haad : aad.length = additionalSize) (p : Bytes) :
    openWith k.bytes (iv ++ aad ++ Gcm.sealWith k iv aad p) = .ok p := by
  have hlen : ¬ (iv ++ aad ++ Gcm.sealWith k iv aad p).length < minSize := by
    simp only [List.length_append, Gcm.length_sealWith, hiv, haad, minSize]
    omega
  rw [openWith, if_neg hlen, List.append_assoc, List.take_left' hiv, List.drop_left' hiv]
  simp only [List.take_left' haad, List.drop_left' haad, Gcm.decrypt_sealWith k hiv]
  rfl

theorem CipherKey.bytes_of_written {key : CipherKey} {b : Bytes} (h : Base64.Written key.text b) :
    key.bytes = .ok b := by
  rw [bytes, Base64.decode_trim_of_written h]
  rfl

namespace Envelope

variable {α : Type}

/-- Whether an envelope, with the key of its connection, holds the value: as it is, as the text of its JSON
bytes, or sealed under the key, perhaps compressed. -/
inductive Carries (v : Json) : Envelope → Option CipherKey → Prop
  | inline {e : Envelope} {key : Option CipherKey} : e.tag = Encryption.plain.tag → e.data = v → Carries v e key
  | base64 {e : Envelope} {key : Option CipherKey} {s : String} : e.tag = Encryption.base64.tag →
      e.data = .str s → Base64.Written s (Text.toBytes v.render) → Carries v e key
  | sealedRaw {e : Envelope} {key : CipherKey} {k : Aes.Key} {s : String} : e.tag = Encryption.sealedRaw.tag →
      e.data = .str s → Base64.Written key.text k.bytes → Sealed.Holds s k (Text.toBytes v.render) →
      Carries v e (some key)
  | sealedGzip {e : Envelope} {key : CipherKey} {k : Aes.Key} {s : String} {packed : Bytes} :
      e.tag = Encryption.sealedGzip.tag → e.data = .str s → Base64.Written key.text k.bytes →
      Gzip.unpack packed = .ok (Text.toBytes v.render) → Sealed.Holds s k packed → Carries v e (some key)

theorem fromBase64_of_written {s : String} {b : Bytes} (h : Base64.Written s b) : fromBase64 s = .ok b := by
  rw [fromBase64, Base64.decode_trim_of_written h]
  rfl

theorem openSealed_of_holds {s : String} {k : Aes.Key} {p : Bytes} (h : Sealed.Holds s k p) (compressed : Bool) :
    openSealed compressed k.bytes s =
      if compressed then (Gzip.unpack p).mapError .decompress else .ok p := by
  obtain ⟨iv, aad, t, hiv, haad, hesc, ht⟩ := h
  simp only [openSealed, Percent.decode?_of_escaped hesc, fromBase64_of_written ht, bind, Except.bind,
    Sealed.openWith_sealWith k hiv haad]
  rfl

theorem decode_inline (r : Json.Reading α) {e : Envelope} (htag : e.tag = Encryption.plain.tag)
    (key : Option CipherKey) : e.decode r key = decodePlain r e.data := by
  simp only [decode, Encryption.ofTag?_eq_some_iff.2 htag.symm, bind, Except.bind, if_true]

theorem decode_base64 (r : Json.Reading α) {e : Envelope} {s payload : String}
    (htag : e.tag = Encryption.base64.tag) (hdata : e.data = .str s)
    (h : fromBase64 s = .ok (Text.toBytes payload)) (key : Option CipherKey) :
    e.decode r key = (r.parse (Text.toBytes payload)).mapError .json := by
  simp only [decode, Encryption.ofTag?_eq_some_iff.2 htag.symm, keyFor, Encryption.needsKey, hdata,
    Json.asString?, h, Text.ofBytes?_toBytes, bind, Except.bind]
  rfl

theorem decode_sealed (r : Json.Reading α) {e : Envelope} {encryption : Encryption} {s payload : String}
    {key : CipherKey} {k : Bytes} (htag : e.tag = encryption.tag) (hneeds : encryption.needsKey)
    (hdata : e.data = .str s) (hk : key.bytes = .ok k)
    (h : openSealed (encryption == .sealedGzip) k s = .ok (Text.toBytes payload)) :
    e.decode r (some key) = (r.parse (Text.toBytes payload)).mapError .json := by
  have hne : encryption ≠ .plain := by
    rintro rfl
    cases hneeds
  simp only [decode, Encryption.ofTag?_eq_some_iff.2 htag.symm, keyFor, hneeds, hne, if_true, if_false, hk, hdata,
    Json.asString?, h, Text.ofBytes?_toBytes, bind, Except.bind, Functor.map, Except.map]
  rfl

/-- A packed value is read from its text. -/
theorem decode_of_carries (r : Json.Reading α) {v : Json} {e : Envelope} {key : Option CipherKey}
    (h : Carries v e key) :
    e.tag = Encryption.plain.tag ∧ e.data = v ∨
      e.decode r key = (r.parse (Text.toBytes v.render)).mapError .json := by
  cases h with
  | inline htag hdata => exact .inl ⟨htag, hdata⟩
  | base64 htag hdata hs => exact .inr (decode_base64 r htag hdata (fromBase64_of_written hs) key)
  | sealedRaw htag hdata hkey hs =>
    exact .inr (decode_sealed r htag rfl hdata (CipherKey.bytes_of_written hkey) (openSealed_of_holds hs false))
  | sealedGzip htag hdata hkey hpacked hs =>
    refine .inr (decode_sealed r htag rfl hdata (CipherKey.bytes_of_written hkey) ?_)
    rw [show (Encryption.sealedGzip == .sealedGzip) = true from rfl, openSealed_of_holds hs true, if_pos rfl, hpacked]
    rfl

end Envelope

open Json.Reading in
theorem Batch.steady_reading : Steady reading := by
  have hlist (set : List Json → Batch → Batch) : Steady (map set (list value)) := (steady_value.list).map set
  have hbody : Steady body :=
    Steady.record _ (List.forall_mem_cons.2 ⟨hlist _, List.forall_mem_singleton.2 (hlist _)⟩)
  exact Steady.record _ (List.forall_mem_singleton.2 (hbody.map _))

/-- Only a text is taken for anything but itself. -/
theorem Envelope.decodePlain_of_ne_str {α : Type} (r : Json.Reading α) {v : Json} (hv : ∀ s, v ≠ .str s) :
    (decodePlain r v).toOption = (r.ofJson v).toOption := by
  unfold decodePlain
  cases r.ofJson v with
  | ok a => rfl
  | error f =>
    cases v with
    | str s => exact absurd rfl (hv s)
    | _ => rfl

theorem Envelope.decode_batch_of_carries {v : Json} (hint : v.isIntegral) (hord : v.isOrdered)
    (hdepth : v.depth ≤ Json.maxLevels) (hv : ∀ s, v ≠ .str s) {e : Envelope} {key : Option CipherKey}
    (h : Carries v e key) : (e.decode Batch.reading key).toOption = (Batch.reading.ofJson v).toOption := by
  rcases decode_of_carries Batch.reading h with ⟨htag, hdata⟩ | htext
  · rw [decode_inline _ htag, hdata, decodePlain_of_ne_str _ hv]
  · rw [htext, Json.toOption_mapError, Batch.steady_reading.parse_render hint hord hdepth]

/-- A value comes out of every packing as it went in. So does the batch that it stands for, if it stands for one,
also when the value is packed as its text. -/
theorem Envelope.packings_agree {v : Json} (hint : v.isIntegral) (hord : v.isOrdered)
    (hdepth : v.depth ≤ Json.maxLevels) :
    (∀ e key, Carries v e key → e.decode Json.Reading.value key = .ok v) ∧
      ((∀ s, v ≠ .str s) → ∀ e key,
        Carries v e key ∨ e.tag = Encryption.plain.tag ∧ e.data = .str v.render →
          (e.decode Batch.reading key).toOption = (Batch.reading.ofJson v).toOption) := by
  constructor
  · intro e key h
    rcases decode_of_carries Json.Reading.value h with ⟨htag, hdata⟩ | htext
    · have hread : Json.Reading.value.ofJson v = .ok v := by
        rw [Json.Reading.ofJson, Json.toDraft_eq_draftAs]
        exact Json.read_draftAs Text.toBytes hord trivial
      rw [decode_inline _ htag, hdata, decodePlain, hread]
    · rw [htext, Json.Reading.parse_value_render hint hord hdepth]
      rfl
  · intro hv
    rintro e key (h | ⟨htag, hdata⟩)
    · exact decode_batch_of_carries hint hord hdepth hv h
    · have hstr : Batch.reading.ofJson (.str v.render) = .error .mismatch := rfl
      rw [decode_inline _ htag, hdata, decodePlain, hstr]
      simp only [Json.toOption_mapError, Json.Reading.parseText]
      exact Batch.steady_reading.parse_render hint hord hdepth

/-- All four packings of one batch, sealed under a key of sixteen zero bytes. -/
theorem Envelope.packings_agree_null_item :
    let v : Json := .obj [("data", .obj [("msgs", .arr [.null])])]
    let k : Aes.Key := ⟨List.replicate 16 0, .inl rfl⟩
    let iv : Bytes := List.replicate 16 1
    let aad : Bytes := List.replicate 16 2
    let packed : Bytes :=
      [31, 139, 8, 0, 0, 0, 0, 0, 2, 3, 171, 86, 74, 73, 44, 73, 84, 178, 170, 86, 202, 45, 78, 47,
        86, 178, 138, 206, 43, 205, 201, 137, 173, 173, 5, 0, 221, 206, 77, 202, 24, 0, 0, 0]
    let sealedText (p : Bytes) : Json :=
      .str (Percent.encode (· == Percent.percent) (Base64.encode (iv ++ aad ++ Gcm.sealWith k iv aad p)))
    (v.isIntegral ∧ v.isOrdered ∧ v.depth ≤ Json.maxLevels) ∧
      ∀ e ∈ [⟨none, 0, 0, "", v⟩, ⟨none, 1, 0, "", .str (Base64.encode (Text.toBytes v.render))⟩,
          ⟨none, 3, 0, "", sealedText (Text.toBytes v.render)⟩, ⟨none, 2, 0, "", sealedText packed⟩],
        Envelope.decode Json.Reading.value e (some ⟨Base64.encode k.bytes⟩) = .ok v := by
  intro v k iv aad packed sealedText
  have hform : v.isIntegral ∧ v.isOrdered ∧ v.depth ≤ Json.maxLevels := by decide +kernel
  have hunpack : Gzip.unpack packed = .ok (Text.toBytes v.render) := by decide +kernel
  have hsealed (p : Bytes) : ∃ s, sealedText p = .str s ∧ Sealed.Holds s k p :=
    ⟨_, rfl, iv, aad, _, rfl, rfl, Percent.escaped_encode rfl _, Base64.written_encode _⟩
  have hkey : Base64.Written (Base64.encode k.bytes) k.bytes := Base64.written_encode _
  refine ⟨hform, fun e he => (Envelope.packings_agree hform.1 hform.2.1 hform.2.2).1 e _ ?_⟩
  simp only [List.mem_cons, List.not_mem_nil, or_false] at he
  rcases he with rfl | rfl | rfl | rfl
  · exact .inline rfl rfl
  · exact .base64 rfl rfl (Base64.written_encode _)
  · obtain ⟨s, hs, hholds⟩ := hsealed (Text.toBytes v.render)
    exact .sealedRaw rfl hs hkey hholds
  · obtain ⟨s, hs, hholds⟩ := hsealed packed
    exact .sealedGzip rfl hs hkey hunpack hholds

end ChatWire
