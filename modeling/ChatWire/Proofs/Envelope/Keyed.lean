import ChatWire.Proofs.Envelope.Stages

/-! Payloads that come out of a sealed envelope. They are those that were sealed under the key of the connection;
a buffer that is too short, or was sealed otherwise, is reported as such, and is never cut beyond its end. -/

namespace ChatWire

namespace Unpacking

variable {α : Type}

theorem longEnough_ok_iff {b : Bytes} {p : Sealed.Parts} : LongEnough b (.ok p) ↔ p.AreOf b :=
  ⟨fun | .passes h => h, .passes⟩

theorem keyFits_ok_iff {key : Bytes} {p q : Sealed.Parts} {k : Aes.Key} :
    KeyFits key p (.ok (k, q)) ↔ k.bytes = key ∧ q = p :=
  ⟨fun | .passes h => ⟨h, rfl⟩, fun ⟨hk, hq⟩ => hq ▸ .passes hk⟩

theorem inflated_ok_iff {compressed : Bool} {b c : Bytes} :
    Inflated compressed b (.ok c) ↔ if compressed then Gzip.unpack b = .ok c else c = b := by
  cases compressed with
  | false => exact iff_of_eq (Except.ok.injEq c b)
  | true => exact Stage.reads_ok_iff

end Unpacking

namespace Sealed

/-- Whether `k` seals `plain` in a buffer. -/
def Seals (k : Aes.Key) (plain b : Bytes) : Prop :=
  ∃ iv aad : Bytes, iv.length = 16 ∧ aad.length = 16 ∧ b = iv ++ aad ++ Gcm.sealWith k iv aad plain

theorem seals_iff {k : Aes.Key} {plain b : Bytes} :
    Seals k plain b ↔ ∃ p : Parts, p.AreOf b ∧ p.ciphertext = Gcm.sealWith k p.nonce p.additional plain := by
  constructor
  · rintro ⟨iv, aad, hiv, haad, rfl⟩
    have htag : 16 ≤ (Gcm.sealWith k iv aad plain).length := by
      rw [Gcm.length_sealWith, Gcm.tagSize]
      omega
    exact ⟨⟨iv, aad, _⟩, ⟨rfl, hiv, haad, htag⟩, rfl⟩
  · rintro ⟨p, hp, hseal⟩
    exact ⟨p.nonce, p.additional, hp.nonce, hp.additional, by rw [hp.eq, hseal]⟩

/-- The two sides of a cut; a text cannot be cut beyond its end. -/
def splitAt? (n : Nat) (b : Bytes) : Option (Bytes × Bytes) :=
  if n ≤ b.length then some (b.splitAt n) else none

/-- A buffer opened by cuts, if each of them can be made. -/
def openByCuts? (key b : Bytes) : Option (Except DecodeError Bytes) :=
  if b.length < minSize then some (.error (.tooShort b.length))
  else do
    let (nonce, rest) ← splitAt? Gcm.nonceSize b
    let (additional, ciphertext) ← splitAt? additionalSize rest
    pure ((Gcm.decrypt key nonce additional ciphertext).mapError .decrypt)

/-- What is too short to be cut is refused before. -/
theorem openByCuts?_eq (key b : Bytes) : openByCuts? key b = some (openWith key b) := by
  rw [openByCuts?, openWith]
  split_ifs with hlen
  · rfl
  · have hnonce : Gcm.nonceSize ≤ b.length := by
      rw [minSize] at hlen
      omega
    have hrest : additionalSize ≤ (b.drop Gcm.nonceSize).length := by
      rw [minSize] at hlen
      rw [List.length_drop]
      omega
    simp only [splitAt?, hnonce, if_true, List.splitAt_eq, Option.bind_eq_bind, Option.bind_some, hrest]
    rfl

end Sealed

open Sealed (Seals)

namespace Unpacking

variable {α : Type} (r : Json.Reading α)

theorem ofSealed_ok_iff {compressed : Bool} {k : Bytes} {data : Json} {v : α} :
    OfSealed r compressed k data (.ok v) ↔
      ∃ (key : Aes.Key) (s t : String) (b plain payload : Bytes) (text : String),
        key.bytes = k ∧ data = .str s ∧ Percent.decode? s = some t ∧
          Base64.decode .lenient (Text.trim t) = .ok b ∧ Seals key plain b ∧
          (if compressed then Gzip.unpack plain = .ok payload else payload = plain) ∧
          payload = Text.toBytes text ∧ r.parseText text = .ok v := by
  simp only [OfSealed, Stage.then_ok_iff, Stage.finds_ok_iff, Stage.reads_ok_iff, longEnough_ok_iff, Prod.exists,
    keyFits_ok_iff, inflated_ok_iff, Sealed.seals_iff, Percent.decode?, Text.ofBytes?_eq_some_iff,
    Base64.decode_trim_iff]
  constructor
  · rintro ⟨s, hs, t, ht, b, hb, p, hp, key, _, ⟨hkey, rfl⟩, plain, hseal, payload, hpayload, text, htext, hv⟩
    exact ⟨key, s, t, b, plain, payload, text, hkey, hs, ht, hb, ⟨_, hp, hseal⟩, hpayload, htext, hv⟩
  · rintro ⟨key, s, t, b, plain, payload, text, hkey, hs, ht, hb, ⟨p, hp, hseal⟩, hpayload, htext, hv⟩
    exact ⟨s, hs, t, ht, b, hb, p, hp, key, p, ⟨hkey, rfl⟩, plain, hseal, payload, hpayload, text, htext, hv⟩

variable {compressed : Bool} {k b : Bytes} {s t : String} {data : Json}

/-- A payload that gets as far as its buffer. -/
theorem ofSealed_of_buffer (hs : data = .str s) (ht : Percent.decode? s = some t)
    (hb : Base64.decode .lenient (Text.trim t) = .ok b) {out : Except DecodeError α}
    (hout : Stage.Then LongEnough (Stage.Then (KeyFits k) <| Stage.Then Authentic <|
      Stage.Then (Inflated compressed) <| Stage.Then IsUtf8 <| IsJson r) b out) :
    OfSealed r compressed k data out :=
  .goesOn (.passes hs) <| .goesOn (.passes (Text.ofBytes?_eq_some_iff.1 ht)) <|
    .goesOn (.passes (Base64.decode_trim_iff.1 hb)) hout

end Unpacking

namespace Envelope

open Unpacking

variable {α : Type} (r : Json.Reading α)

/-- What comes out of a sealed envelope was sealed under the key that the connection was given: the payload is cut,
without harm, into a nonce, additional data and a seal of the very text of the value. -/
theorem only_seals_are_opened {e : Envelope} (htag : e.tag = 2 ∨ e.tag = 3) (key : CipherKey) :
    (∀ v, e.decode r (some key) = .ok v ↔
      ∃ (k : Aes.Key) (s t : String) (b plain payload : Bytes) (text : String),
        Base64.decode .lenient (Text.trim key.text) = .ok k.bytes ∧ e.data = .str s ∧
          Percent.decode? s = some t ∧ Base64.decode .lenient (Text.trim t) = .ok b ∧ Seals k plain b ∧
          (if e.tag = 2 then Gzip.unpack plain = .ok payload else payload = plain) ∧
          payload = Text.toBytes text ∧ r.parseText text = .ok v) ∧
      (∀ k b, Sealed.openByCuts? k b = some (Sealed.openWith k b)) ∧
      ∀ k s t b, Base64.decode .lenient (Text.trim key.text) = .ok k → e.data = .str s →
        Percent.decode? s = some t → Base64.decode .lenient (Text.trim t) = .ok b →
        (b.length < 48 → e.decode r (some key) = .error (.tooShort b.length)) ∧
          ∀ l : Aes.Key, l.bytes = k → 48 ≤ b.length → (∀ plain, ¬ Seals l plain b) →
            e.decode r (some key) = .error (.decrypt .authentication) := by
  refine ⟨fun v => ⟨fun h => ?_, ?_⟩, Sealed.openByCuts?_eq, fun k s t b hkey hs ht hb => ⟨fun hlen => ?_, ?_⟩⟩
  · obtain ⟨k, hkey⟩ : ∃ k, Base64.decode .lenient (Text.trim key.text) = .ok k := by
      cases hkey : Base64.decode .lenient (Text.trim key.text) with
      | ok k => exact ⟨k, rfl⟩
      | error f =>
        rw [decode_of_invalid_key r htag hkey] at h
        cases h
    rw [decode_sealed_iff r htag hkey, ofSealed_ok_iff] at h
    obtain ⟨l, s, t, b, plain, payload, text, rfl, hs, ht, hb, hseal, hpayload, hrest⟩ := h
    exact ⟨l, s, t, b, plain, payload, text, hkey, hs, ht, hb, hseal, by simpa using hpayload, hrest⟩
  · rintro ⟨l, s, t, b, plain, payload, text, hkey, hs, ht, hb, hseal, hpayload, hrest⟩
    rw [decode_sealed_iff r htag hkey, ofSealed_ok_iff]
    exact ⟨l, s, t, b, plain, payload, text, rfl, hs, ht, hb, hseal, by simpa using hpayload, hrest⟩
  · exact (decode_sealed_iff r htag hkey _).2 (ofSealed_of_buffer r hs ht hb (.stops (.stops hlen)))
  · rintro l rfl hlen hforged
    obtain ⟨p, hp⟩ := Sealed.exists_areOf hlen
    have hstops : Authentic (l, p) (.error (.decrypt .authentication)) :=
      .stops fun plain hseal => hforged plain (Sealed.seals_iff.2 ⟨p, hp, hseal⟩)
    exact (decode_sealed_iff r htag hkey _).2 <| ofSealed_of_buffer r hs ht hb <|
      .goesOn (.passes hp) <| .goesOn (.passes rfl) <| .stops hstops

/-- A seal of a value, a seal of nothing with every byte of its tag changed, and a buffer that lacks four bytes. -/
theorem only_seals_are_opened_null :
    let k : Aes.Key := ⟨List.replicate 16 0, .inl rfl⟩
    let iv : Bytes := List.replicate 16 1
    let aad : Bytes := List.replicate 16 2
    let forged := (Gcm.sealWith k iv aad []).map (· + 1)
    let e (b : Bytes) : Envelope := ⟨none, 3, 0, "", .str (Base64.encode b)⟩
    let key : CipherKey := ⟨Base64.encode k.bytes⟩
    (e (iv ++ aad ++ Gcm.sealWith k iv aad (Text.toBytes "null"))).decode Json.Reading.value (some key) = .ok .null ∧
      (e (iv ++ aad ++ forged)).decode Json.Reading.value (some key) = .error (.decrypt .authentication) ∧
      (e (iv ++ aad ++ forged.take 12)).decode Json.Reading.value (some key) = .error (.tooShort 44) := by
  intro k iv aad forged e key
  have hopens (b : Bytes) :=
    only_seals_are_opened Json.Reading.value (show (e b).tag = 2 ∨ (e b).tag = 3 from .inr rfl) key
  have hkey : Base64.decode .lenient (Text.trim key.text) = .ok k.bytes :=
    Base64.decode_trim_iff.2 (Base64.written_encode k.bytes)
  have hplain (b : Bytes) : Percent.decode? (Base64.encode b) = some (Base64.encode b) :=
    Percent.decode?_of_escaped (.refl (Base64.percent_not_mem_encode b))
  have hdecode (b : Bytes) : Base64.decode .lenient (Text.trim (Base64.encode b)) = .ok b :=
    Base64.decode_trim_iff.2 (Base64.written_encode b)
  have hlen : forged.length = 16 := by
    rw [List.length_map, Gcm.length_sealWith]
    rfl
  have hforged (plain : Bytes) : ¬ Seals k plain (iv ++ aad ++ forged) := by
    rintro ⟨iv', aad', hiv, haad, heq⟩
    rw [List.append_assoc, List.append_assoc] at heq
    obtain ⟨rfl, heq⟩ := List.append_inj heq hiv.symm
    obtain ⟨rfl, heq⟩ := List.append_inj heq haad.symm
    have hnil : plain = [] := by
      have hsize := congrArg List.length heq
      rw [hlen, Gcm.length_sealWith, Gcm.tagSize] at hsize
      exact List.eq_nil_of_length_eq_zero (by omega)
    rw [hnil] at heq
    cases hseal : Gcm.sealWith k iv aad [] with
    | nil => cases (congrArg List.length hseal).symm.trans (Gcm.length_sealWith k iv aad [])
    | cons x r => simp [forged, hseal] at heq
  have hnull : Json.Reading.value.parse (Text.toBytes Json.null.render) = .ok .null :=
    Json.Reading.parse_value_render rfl rfl (by decide)
  have hlong : (iv ++ aad ++ forged).length = 48 := by
    rw [List.length_append, hlen]
    rfl
  have hshort : (iv ++ aad ++ forged.take 12).length = 44 := by
    rw [List.length_append, List.length_take, hlen]
    rfl
  refine ⟨((hopens _).1 _).2 ⟨k, _, _, _, _, _, "null", hkey, rfl, hplain _, hdecode _, ⟨iv, aad, rfl, rfl, rfl⟩, rfl,
      rfl, hnull⟩, ((hopens _).2.2 _ _ _ _ hkey rfl (hplain _) (hdecode _)).2 k rfl hlong.ge hforged, ?_⟩
  rw [← hshort]
  exact ((hopens _).2.2 _ _ _ _ hkey rfl (hplain _) (hdecode _)).1 (by omega)

end Envelope

end ChatWire
