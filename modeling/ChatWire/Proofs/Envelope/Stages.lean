import ChatWire.Proofs.Bytes.Canonical
import ChatWire.Proofs.Envelope.Encodings

/-! The stages of a decode. Each is told by what it lets pass and what it reports of anything else, without a word
on how it goes about it; the first one that does not let a payload pass decides what is reported. -/

namespace ChatWire

namespace Sealed

/-- A sealed payload cut into its parts. -/
structure Parts where
  nonce : Bytes
  additional : Bytes
  ciphertext : Bytes

/-- Whether the parts are those of a buffer. The ciphertext has room for the tag. -/
structure Parts.AreOf (p : Parts) (b : Bytes) : Prop where
  eq : b = p.nonce ++ p.additional ++ p.ciphertext
  nonce : p.nonce.length = 16
  additional : p.additional.length = 16
  tag : 16 ≤ p.ciphertext.length

theorem exists_areOf {b : Bytes} (h : 48 ≤ b.length) : ∃ p : Parts, p.AreOf b := by
  refine ⟨⟨b.take 16, (b.drop 16).take 16, (b.drop 16).drop 16⟩, ?_, ?_, ?_, ?_⟩
  · rw [List.append_assoc, List.take_append_drop, List.take_append_drop]
  all_goals
    simp only [List.length_take, List.length_drop]
    omega

/-- The parts of a buffer, if it is long enough. -/
def cut (b : Bytes) : Except DecodeError Parts :=
  if b.length < minSize then .error (.tooShort b.length)
  else .ok ⟨b.take Gcm.nonceSize, (b.drop Gcm.nonceSize).take additionalSize,
    (b.drop Gcm.nonceSize).drop additionalSize⟩

def fit (key : Bytes) (p : Parts) : Except DecodeError (Aes.Key × Parts) :=
  orReport (.decrypt (.keyLength key.length)) ((Aes.Key.ofBytes? key).map (·, p))

def unlock (s : Aes.Key × Parts) : Except DecodeError Bytes :=
  orReport (.decrypt .authentication) (Gcm.openWith? s.1 s.2.nonce s.2.additional s.2.ciphertext)

theorem cut_of_lt {b : Bytes} (h : b.length < 48) : cut b = .error (.tooShort b.length) := if_pos h

theorem Parts.AreOf.cut_eq {p : Parts} {b : Bytes} (h : p.AreOf b) : cut b = .ok p := by
  have hnonce : p.nonce.length = Gcm.nonceSize := h.nonce
  have hadditional : p.additional.length = additionalSize := h.additional
  have hmin : ¬ b.length < minSize := by
    have htag : Gcm.tagSize ≤ p.ciphertext.length := h.tag
    rw [h.eq, List.length_append, List.length_append, minSize]
    omega
  rw [cut, if_neg hmin, h.eq, List.append_assoc, List.take_left' hnonce, List.drop_left' hnonce,
    List.take_left' hadditional, List.drop_left' hadditional]

/-- The nonce is always of the right length, so what is left to look at are the key and the tag. -/
theorem openWith_eq (key b : Bytes) : openWith key b = (do
    let p ← cut b
    let s ← fit key p
    unlock s) := by
  by_cases hlen : b.length < minSize
  · rw [openWith, cut, if_pos hlen, if_pos hlen]
    rfl
  · have hnonce : (b.take Gcm.nonceSize).length = Gcm.nonceSize := by
      rw [List.length_take]
      simp only [minSize, Gcm.nonceSize, additionalSize, Gcm.tagSize] at hlen ⊢
      omega
    rw [openWith, cut, if_neg hlen, if_neg hlen]
    simp only [Gcm.decrypt, hnonce, ne_eq, not_true, if_false]
    simp only [fit, unlock, bind, Except.bind]
    cases Aes.Key.ofBytes? key with
    | none => rfl
    | some k =>
      simp only [Option.map_some, orReport]
      cases Gcm.openWith? k _ _ _ <;> rfl

end Sealed

namespace Unpacking

open Stage (Then Finds Reads)

variable {α : Type}

abbrev IsString : Stage DecodeError Json String := Finds (fun data s => data = .str s) .dataNotString

/-- The bytes that the escapes stand for must be those of a text. -/
abbrev Unescaped : Stage DecodeError String String :=
  Finds (fun s t => Percent.decodeBytes (Text.toBytes s) = Text.toBytes t) .notEscapedText

abbrev FromBase64 : Stage DecodeError String Bytes :=
  Reads Base64.Written (fun s => Base64.decode .lenient (Text.trim s)) .base64

/-- There must be a nonce, the additional data and a tag. -/
inductive LongEnough : Stage DecodeError Bytes Sealed.Parts
  | passes {b : Bytes} {p : Sealed.Parts} : p.AreOf b → LongEnough b (.ok p)
  | stops {b : Bytes} : b.length < 48 → LongEnough b (.error (.tooShort b.length))

inductive KeyFits (key : Bytes) : Stage DecodeError Sealed.Parts (Aes.Key × Sealed.Parts)
  | passes {k : Aes.Key} {p : Sealed.Parts} : k.bytes = key → KeyFits key p (.ok (k, p))
  | stops {p : Sealed.Parts} : ¬ (key.length = 16 ∨ key.length = 24 ∨ key.length = 32) →
      KeyFits key p (.error (.decrypt (.keyLength key.length)))

/-- What is opened must have been sealed. -/
abbrev Authentic : Stage DecodeError (Aes.Key × Sealed.Parts) Bytes :=
  Finds (fun s plain => s.2.ciphertext = Gcm.sealWith s.1 s.2.nonce s.2.additional plain) (.decrypt .authentication)

/-- Only what is compressed is inflated. -/
def Inflated : Bool → Stage DecodeError Bytes Bytes
  | false => fun b out => out = .ok b
  | true => Reads (fun b c => Gzip.unpack b = .ok c) Gzip.unpack .decompress

abbrev IsUtf8 : Stage DecodeError Bytes String := Finds (fun b s => b = Text.toBytes s) .notText

abbrev IsJson (r : Json.Reading α) : Stage DecodeError String α :=
  Reads (fun s a => r.parseText s = .ok a) r.parseText .json

/-- the way of a payload in base64 -/
def OfBase64 (r : Json.Reading α) : Stage DecodeError Json α :=
  Then IsString <| Then FromBase64 <| Then IsUtf8 <| IsJson r

/-- the way of a sealed payload -/
def OfSealed (r : Json.Reading α) (compressed : Bool) (key : Bytes) : Stage DecodeError Json α :=
  Then IsString <| Then Unescaped <| Then FromBase64 <| Then LongEnough <| Then (KeyFits key) <| Then Authentic <|
    Then (Inflated compressed) <| Then IsUtf8 <| IsJson r

/-! ### What the stages say is what is done -/

theorem isString_describes : Stage.Describes IsString fun data => orReport .dataNotString data.asString? := by
  refine Stage.finds_describes fun data s => ?_
  cases data <;> simp [Json.asString?]

theorem unescaped_describes : Stage.Describes Unescaped fun s => orReport .notEscapedText (Percent.decode? s) :=
  Stage.finds_describes fun _ _ => Text.ofBytes?_eq_some_iff

theorem fromBase64_describes : Stage.Describes FromBase64 Envelope.fromBase64 :=
  Stage.reads_describes fun _ _ => Base64.decode_trim_iff

theorem longEnough_describes : Stage.Describes LongEnough Sealed.cut := by
  refine Stage.describes_of (fun b => ?_) ?_
  · rcases Nat.lt_or_ge b.length 48 with hlen | hlen
    · rw [Sealed.cut_of_lt hlen]
      exact .stops hlen
    · obtain ⟨p, hp⟩ := Sealed.exists_areOf hlen
      rw [hp.cut_eq]
      exact .passes hp
  · rintro b out (hp | hlen)
    · exact hp.cut_eq
    · exact Sealed.cut_of_lt hlen

theorem keyFits_describes (key : Bytes) : (KeyFits key).Describes (Sealed.fit key) := by
  refine Stage.describes_of (fun p => ?_) ?_
  · by_cases hk : key.length = 16 ∨ key.length = 24 ∨ key.length = 32
    · rw [Sealed.fit, show Aes.Key.ofBytes? key = _ from Aes.Key.ofBytes?_bytes ⟨key, hk⟩]
      exact .passes rfl
    · rw [Sealed.fit, Aes.Key.ofBytes?_eq_none hk]
      exact .stops hk
  · rintro p out (hk | hk)
    · rw [Sealed.fit, ← hk, Aes.Key.ofBytes?_bytes]
      rfl
    · rw [Sealed.fit, Aes.Key.ofBytes?_eq_none hk]
      rfl

theorem authentic_describes : Stage.Describes Authentic Sealed.unlock :=
  Stage.finds_describes fun _ _ => Gcm.openWith?_eq_some_iff ..

theorem inflated_describes (compressed : Bool) : (Inflated compressed).Describes fun b =>
    if compressed then (Gzip.unpack b).mapError .decompress else pure b := by
  cases compressed with
  | false => exact fun b out => eq_comm
  | true => exact Stage.reads_describes fun _ _ => Iff.rfl

theorem isUtf8_describes : Stage.Describes IsUtf8 fun b => orReport .notText (Text.ofBytes? b) :=
  Stage.finds_describes fun _ _ => Text.ofBytes?_eq_some_iff

theorem isJson_describes (r : Json.Reading α) : (IsJson r).Describes fun s => (r.parseText s).mapError .json :=
  Stage.reads_describes fun _ _ => Iff.rfl

/-! ### The way of a payload as a whole -/

theorem ofBase64_describes (r : Json.Reading α) : (OfBase64 r).Describes fun data => (do
    let text ← orReport .dataNotString data.asString?
    let b ← Envelope.fromBase64 text
    let payload ← orReport .notText (Text.ofBytes? b)
    (r.parseText payload).mapError .json) :=
  isString_describes.then (fromBase64_describes.then (isUtf8_describes.then (isJson_describes r)))

theorem openSealed_eq (compressed : Bool) (key : Bytes) (text : String) :
    Envelope.openSealed compressed key text = (do
      let plain ← orReport .notEscapedText (Percent.decode? text)
      let b ← Envelope.fromBase64 plain
      let p ← Sealed.cut b
      let s ← Sealed.fit key p
      let opened ← Sealed.unlock s
      if compressed then (Gzip.unpack opened).mapError .decompress else pure opened) := by
  rw [Envelope.openSealed]
  cases Percent.decode? text with
  | none => rfl
  | some plain =>
    rw [orReport_some_bind]
    simp only [Sealed.openWith_eq, bind_assoc]

theorem ofSealed_describes (r : Json.Reading α) (compressed : Bool) (key : Bytes) :
    (OfSealed r compressed key).Describes fun data => (do
      let text ← orReport .dataNotString data.asString?
      let b ← Envelope.openSealed compressed key text
      let payload ← orReport .notText (Text.ofBytes? b)
      (r.parseText payload).mapError .json) := by
  have hstages := isString_describes.then <| unescaped_describes.then <| fromBase64_describes.then <|
    longEnough_describes.then <| (keyFits_describes key).then <| authentic_describes.then <|
    (inflated_describes compressed).then <| isUtf8_describes.then <| isJson_describes r
  intro data out
  rw [OfSealed, hstages data out]
  simp only [openSealed_eq, bind_assoc]

end Unpacking

namespace Envelope

open Unpacking

variable {α : Type} (r : Json.Reading α) {e : Envelope}

/-- What is read of the bytes of a payload, by whichever way they were got. -/
theorem readText_eq (x : Except DecodeError Bytes) :
    (do
      let b ← x
      let some payload := Text.ofBytes? b | throw .notText
      (r.parseText payload).mapError .json) = (do
      let b ← x
      let payload ← orReport .notText (Text.ofBytes? b)
      (r.parseText payload).mapError .json) := by
  congr 1
  funext b
  cases Text.ofBytes? b <;> rfl

theorem decode_packed {encryption : Encryption} (htag : e.tag = encryption.tag) (hpacked : encryption ≠ .plain)
    (key : Option CipherKey) :
    e.decode r key = (do
      let k ← keyFor encryption key
      let text ← orReport .dataNotString e.data.asString?
      let b ← match k with
        | none => fromBase64 text
        | some k => openSealed (encryption == .sealedGzip) k text
      let payload ← orReport .notText (Text.ofBytes? b)
      (r.parseText payload).mapError .json) := by
  simp only [decode, Encryption.ofTag?_eq_some_iff.2 htag.symm, hpacked, if_false]
  congr 1
  funext k
  cases e.data.asString? with
  | none => rfl
  | some text =>
    rw [orReport_some_bind]
    cases k <;> exact readText_eq r _

theorem exists_sealed (htag : e.tag = 2 ∨ e.tag = 3) : ∃ encryption : Encryption, e.tag = encryption.tag ∧
    encryption ≠ .plain ∧ encryption.needsKey ∧ (encryption == .sealedGzip) = decide (e.tag = 2) := by
  rcases htag with htag | htag
  · exact ⟨.sealedGzip, htag, nofun, rfl, by rw [htag]; rfl⟩
  · exact ⟨.sealedRaw, htag, nofun, rfl, by rw [htag]; rfl⟩

theorem decode_of_missing_key (htag : e.tag = 2 ∨ e.tag = 3) : e.decode r none = .error .missingKey := by
  obtain ⟨encryption, htag, hpacked, hneeds, -⟩ := exists_sealed htag
  rw [decode_packed r htag hpacked, keyFor, if_pos hneeds]
  rfl

theorem decode_of_invalid_key (htag : e.tag = 2 ∨ e.tag = 3) {key : CipherKey} {f : Base64.Fault}
    (hkey : Base64.decode .lenient (Text.trim key.text) = .error f) :
    e.decode r (some key) = .error (.invalidKey f) := by
  obtain ⟨encryption, htag, hpacked, hneeds, -⟩ := exists_sealed htag
  rw [decode_packed r htag hpacked, keyFor, if_pos hneeds, CipherKey.bytes, hkey]
  rfl

theorem decode_of_unsupported (htag : 3 < e.tag) (key : Option CipherKey) :
    e.decode r key = .error (.unsupported e.tag) := by
  have hnone : Encryption.ofTag? e.tag = none := by
    rw [Option.eq_none_iff_forall_ne_some]
    rintro encryption h
    rw [Encryption.ofTag?_eq_some_iff] at h
    cases encryption <;> simp only [Encryption.tag] at h <;> omega
  rw [decode, hnone]
  rfl

theorem decode_base64_iff (htag : e.tag = 1) (key : Option CipherKey) (out : Except DecodeError α) :
    e.decode r key = out ↔ OfBase64 r e.data out := by
  have htag : e.tag = Encryption.base64.tag := htag
  rw [ofBase64_describes r e.data out, decode_packed r htag nofun]
  exact Iff.rfl

theorem decode_sealed_iff (htag : e.tag = 2 ∨ e.tag = 3) {key : CipherKey} {k : Bytes}
    (hkey : Base64.decode .lenient (Text.trim key.text) = .ok k) (out : Except DecodeError α) :
    e.decode r (some key) = out ↔ OfSealed r (e.tag = 2) k e.data out := by
  obtain ⟨encryption, htag', hpacked, hneeds, hgzip⟩ := exists_sealed htag
  rw [ofSealed_describes r _ k e.data out, decode_packed r htag' hpacked, keyFor, if_pos hneeds, CipherKey.bytes,
    hkey, hgzip]
  exact Iff.rfl

/-- The key matters to sealed payloads alone, and for these it is looked at before anything else. Then the stages
follow in their order: the outcome is a value that all of them let pass, or what the first one that does not
reports. -/
theorem first_stop_decides (e : Envelope) :
    (e.tag ≠ 2 → e.tag ≠ 3 → ∀ key key', e.decode r key = e.decode r key') ∧
      (3 < e.tag → ∀ key, e.decode r key = .error (.unsupported e.tag)) ∧
      (e.tag = 2 ∨ e.tag = 3 → e.decode r none = .error .missingKey ∧
        ∀ key : CipherKey,
          (∀ f, Base64.decode .lenient (Text.trim key.text) = .error f →
            e.decode r (some key) = .error (.invalidKey f)) ∧
          ∀ k, Base64.decode .lenient (Text.trim key.text) = .ok k →
            ∀ out, e.decode r (some key) = out ↔ OfSealed r (e.tag = 2) k e.data out) ∧
      (e.tag = 1 → ∀ key out, e.decode r key = out ↔ OfBase64 r e.data out) := by
  refine ⟨fun h2 h3 key key' => ?_, decode_of_unsupported r, fun htag => ⟨decode_of_missing_key r htag, fun key =>
    ⟨fun f => decode_of_invalid_key r htag, fun k => decode_sealed_iff r htag⟩⟩, decode_base64_iff r⟩
  rcases Nat.lt_or_ge 3 e.tag with htag | htag
  · rw [decode_of_unsupported r htag, decode_of_unsupported r htag]
  · obtain htag | htag : e.tag = 0 ∨ e.tag = 1 := by omega
    · rw [decode_inline r htag, decode_inline r htag]
    · rw [decode_base64_iff r htag, ← decode_base64_iff r htag key']

/-- A key and a buffer that are both too short: the buffer is what is reported. -/
theorem first_stop_decides_short :
    let e (tag : Nat) : Envelope := ⟨none, tag, 0, "", .str "AAAA"⟩
    let r := Json.Reading.value
    (e 3).decode r none = .error .missingKey ∧ (e 3).decode r (some ⟨"AA!"⟩) = .error (.invalidKey (.symbol 33 2)) ∧
      OfSealed r false [0, 0, 0] (.str "AAAA") (.error (.tooShort 3)) ∧
      (e 3).decode r (some ⟨"AAAA"⟩) = .error (.tooShort 3) ∧
      (e 1).decode r (some ⟨"AA!"⟩) = (e 1).decode r none ∧ (e 4).decode r none = .error (.unsupported 4) := by
  intro e r
  have hwritten : Base64.Written "AAAA" [0, 0, 0] := Base64.written_encode [0, 0, 0]
  have hstages : OfSealed r false [0, 0, 0] (.str "AAAA") (.error (.tooShort 3)) :=
    .goesOn (.passes rfl) <| .goesOn (.passes (by decide)) <| .goesOn (.passes hwritten) <|
      .stops (.stops (by decide))
  obtain ⟨-, -, hkeyed, -⟩ := first_stop_decides r (e 3)
  obtain ⟨hmissing, hkey⟩ := hkeyed (.inr rfl)
  exact ⟨hmissing, (hkey ⟨"AA!"⟩).1 _ (by decide +kernel), hstages,
    ((hkey ⟨"AAAA"⟩).2 _ (Base64.decode_trim_iff.2 hwritten) _).2 hstages,
    (first_stop_decides r (e 1)).1 (by decide) (by decide) _ _, (first_stop_decides r (e 4)).2.1 (by decide) none⟩

end Envelope

end ChatWire
