import ChatWire.Text.Percent
import ChatWire.Proofs.Text.Utf8

/-! Escaped text read back. Any of the bytes of a text may be escaped, with digits of either case. -/

namespace ChatWire.Percent

/-- `Escapes x b`: the bytes `x` are `b`, some of them escaped. Only an escape starts with a percent sign. -/
inductive Escapes : Bytes → Bytes → Prop
  | nil : Escapes [] []
  | plain {c : UInt8} {x b : Bytes} : c ≠ percent → Escapes x b → Escapes (c :: x) (c :: b)
  | escape {h l : UInt8} {m n : Nat} {x b : Bytes} : hexValue? h = some m → hexValue? l = some n →
      Escapes x b → Escapes (percent :: h :: l :: x) (UInt8.ofNat (16 * m + n) :: b)

theorem decodeBytes_cons {c : UInt8} (hc : c ≠ percent) (x : Bytes) :
    decodeBytes (c :: x) = c :: decodeBytes x := by
  match x with
  | [] => rfl
  | [y] => rfl
  | y :: z :: r => simp [decodeBytes, escaped?, hc]

theorem Escapes.decodeBytes_eq {x b : Bytes} (h : Escapes x b) : decodeBytes x = b := by
  induction h with
  | nil => rfl
  | plain hc _ ih => rw [decodeBytes_cons hc, ih]
  | escape hm hn _ ih => simp [decodeBytes, escaped?, hm, hn, ih]

theorem Escapes.refl {b : Bytes} (h : percent ∉ b) : Escapes b b := by
  induction b with
  | nil => exact .nil
  | cons c r ih =>
    rw [List.mem_cons, not_or] at h
    exact .plain (Ne.symm h.1) (ih h.2)

theorem hexValue?_upperDigit : ∀ n < 16, hexValue? (UInt8.ofNat (Hex.upperDigit n).toNat) = some n := by decide

/-- What the encoder makes is an escaped form, as long as percent signs are escaped. -/
theorem escapes_encodeBytes {special : UInt8 → Bool} (hs : special percent) (b : Bytes) :
    Escapes (encodeBytes special b) b := by
  induction b with
  | nil => exact .nil
  | cons c r ih =>
    have hc := c.toNat_lt
    have hcons : encodeBytes special (c :: r) = (if special c then escape c else [c]) ++ encodeBytes special r :=
      rfl
    rw [hcons]
    split_ifs with h
    · have hnib : UInt8.ofNat (16 * (c.toNat / 16) + c.toNat % 16) = c := by
        rw [Nat.div_add_mod, UInt8.ofNat_toNat]
      have := Escapes.escape (hexValue?_upperDigit (c.toNat / 16) (by omega))
        (hexValue?_upperDigit (c.toNat % 16) (by omega)) ih
      rwa [hnib] at this
    · refine .plain (fun hp => h ?_) ih
      rwa [hp]

/-- The text `s` is `t` with any of its bytes escaped. -/
def Escaped (s t : String) : Prop := Escapes (Text.toBytes s) (Text.toBytes t)

theorem decode?_of_escaped {s t : String} (h : Escaped s t) : decode? s = some t := by
  rw [decode?, h.decodeBytes_eq, Text.ofBytes?_toBytes]

theorem lt_of_mem_escape {b x : UInt8} (h : x ∈ escape b) : x.toNat < 128 := by
  have hdigit : ∀ n < 16, (UInt8.ofNat (Hex.upperDigit n).toNat).toNat < 128 := by decide
  have hb := b.toNat_lt
  simp only [escape, List.mem_cons, List.not_mem_nil, or_false] at h
  rcases h with rfl | rfl | rfl
  · decide
  · exact hdigit _ (by omega)
  · exact hdigit _ (by omega)

/-- Bytes outside ASCII are always escaped, so what is encoded is ASCII. -/
theorem lt_of_mem_encodeBytes {special : UInt8 → Bool} {b : Bytes} :
    ∀ x ∈ encodeBytes (fun x => x ≥ 128 || special x) b, x.toNat < 128 := by
  intro x hx
  obtain ⟨b, -, hx⟩ := List.mem_flatMap.1 hx
  split_ifs at hx with h
  · exact lt_of_mem_escape hx
  · simp only [Bool.or_eq_true, decide_eq_true_eq, ge_iff_le, not_or, UInt8.not_le] at h
    rw [List.mem_singleton.1 hx]
    exact UInt8.lt_iff_toNat_lt.1 h.1

theorem lt_of_mem_encode {special : UInt8 → Bool} {s : String} {c : Char} (h : c ∈ (encode special s).toList) :
    c.toNat < 128 := by
  rw [encode, String.toList_ofList] at h
  obtain ⟨x, hx, rfl⟩ := List.mem_map.1 h
  have hlt := lt_of_mem_encodeBytes x hx
  rwa [Text.toNat_charOfNat (by omega)]

/-- Where no byte is picked, nothing changes. -/
theorem encodeBytes_of_kept {special : UInt8 → Bool} {b : Bytes} (h : ∀ x ∈ b, special x = false) :
    encodeBytes special b = b := by
  induction b with
  | nil => rfl
  | cons x r ih =>
    have hcons : encodeBytes special (x :: r) = (if special x then escape x else [x]) ++ encodeBytes special r :=
      rfl
    rw [hcons, h x (List.mem_cons_self ..), ih fun y hy => h y (List.mem_cons_of_mem _ hy)]
    rfl

/-- The encoder's text is an escaped form of the text it is given. -/
theorem escaped_encode {special : UInt8 → Bool} (hs : special percent) (t : String) :
    Escaped (encode special t) t := by
  rw [Escaped, encode, Text.toBytes_ofList_map lt_of_mem_encodeBytes]
  exact escapes_encodeBytes (by simp [hs]) _

theorem ofNat_upperDigit : ∀ n < 16, Char.ofNat (UInt8.ofNat (Hex.upperDigit n).toNat).toNat = Hex.upperDigit n := by
  decide

/-- In an encoded text there are characters of the text that are not picked, and escapes. -/
theorem mem_encode {special : UInt8 → Bool} {s : String} {c : Char} (h : c ∈ (encode special s).toList) :
    (c ∈ s.toList ∧ special (UInt8.ofNat c.toNat) = false) ∨ c = '%' ∨ ∃ n < 16, c = Hex.upperDigit n := by
  rw [encode, String.toList_ofList] at h
  obtain ⟨x, hx, rfl⟩ := List.mem_map.1 h
  obtain ⟨b, hb, hx⟩ := List.mem_flatMap.1 hx
  have hlt := b.toNat_lt
  split_ifs at hx with hspecial
  · simp only [escape, List.mem_cons, List.not_mem_nil, or_false] at hx
    rcases hx with rfl | rfl | rfl
    · exact .inr (.inl rfl)
    · exact .inr (.inr ⟨_, by omega, ofNat_upperDigit _ (by omega)⟩)
    · exact .inr (.inr ⟨_, by omega, ofNat_upperDigit _ (by omega)⟩)
  · rw [List.mem_singleton.1 hx]
    simp only [Bool.or_eq_true, decide_eq_true_eq, ge_iff_le, not_or, UInt8.not_le, Bool.not_eq_true] at hspecial
    have hascii : b.toNat < 128 := UInt8.lt_iff_toNat_lt.1 hspecial.1
    rw [Text.toBytes_eq_utf8] at hb
    obtain ⟨d, hd, hbd, hnat⟩ := Text.exists_of_mem_utf8 hascii hb
    have hchar : Char.ofNat b.toNat = d := by rw [← hnat, Char.ofNat_toNat]
    exact .inl ⟨hchar ▸ hd, by rw [hchar, ← hbd]; exact hspecial.2⟩

end ChatWire.Percent
