import ChatWire.Cipher.Aes
import ChatWire.Params.Key
import ChatWire.Proofs.Bytes.Hex
import ChatWire.Proofs.Text.Utf8

/-! A device token is long enough to derive a key from, and every derived key is fit for the cipher: it has
32 characters, all of them hexadecimal digits. -/

namespace ChatWire.RequestKey

theorem length_evens_odds {α : Type} (l : List α) :
    (evens l).length = (l.length + 1) / 2 ∧ (odds l).length = l.length / 2 := by
  induction l with
  | nil => simp [evens, odds]
  | cons a r ih =>
    obtain ⟨he, ho⟩ := ih
    constructor
    · rw [evens, List.length_cons, List.length_cons, ho]
      omega
    · rw [odds, List.length_cons, he]

theorem evens_odds_sublist {α : Type} (l : List α) : (evens l).Sublist l ∧ (odds l).Sublist l := by
  induction l with
  | nil => exact ⟨List.Sublist.refl [], List.Sublist.refl []⟩
  | cons a r ih => exact ⟨ih.2.cons_cons a, ih.1.cons a⟩

/-! ### What a key is woven from -/

/-- the digest of an extension, in upper-case digits -/
def digest (extension : String) : String := (Hex.encode (Md5.digest (Text.toBytes extension))).toUpper

theorem toList_digest (extension : String) :
    (digest extension).toList = Hex.encodeUpperChars (Md5.digest (Text.toBytes extension)) := by
  rw [digest, Hex.toUpper_encode, Hex.toList_encodeUpper]

theorem length_digest (extension : String) : (digest extension).length = 32 := by
  rw [← String.length_toList, toList_digest, Hex.length_encodeUpperChars, Md5.length_digest]

/-- A digest always has the characters that a key takes from it. -/
theorem length_evens_digest (extension : String) : (evens (digest extension).toList).length = 16 := by
  rw [(length_evens_odds _).1, String.length_toList, length_digest]

/-- the characters of a key -/
def woven (extension token : String) : List Char :=
  (evens (digest extension).toList).take 8 ++ (evens token.toList).take 12 ++ ((odds token.toList).take 12).reverse

/-- There is enough of each part. -/
theorem length_parts (extension : String) {token : String} (h : 24 ≤ token.length) :
    ((evens (digest extension).toList).take 8).length = 8 ∧ ((evens token.toList).take 12).length = 12 ∧
      ((odds token.toList).take 12).length = 12 := by
  have hdigest := length_evens_digest extension
  have htoken := length_evens_odds token.toList
  rw [String.length_toList] at htoken
  simp only [List.length_take]
  omega

theorem length_woven (extension : String) {token : String} (h : 24 ≤ token.length) :
    (woven extension token).length = 32 := by
  obtain ⟨hfront, hmiddle, hback⟩ := length_parts extension h
  rw [woven, List.length_append, List.length_append, List.length_reverse, hfront, hmiddle, hback]

/-- Twelve characters at places of either kind make twenty-four in all. -/
theorem derive_eq_ok_iff {extension token key : String} :
    derive extension token = .ok key ↔
      extension ≠ "" ∧ 24 ≤ token.length ∧ key = String.ofList (woven extension token) := by
  have htoken := length_evens_odds token.toList
  rw [String.length_toList] at htoken
  simp only [derive, woven, toList_digest]
  split_ifs with he hlong
  · have hempty : extension = "" := by simpa using he
    simp [hempty]
  · have hshort : ¬ 24 ≤ token.length := by omega
    simp [hshort]
  · have henough : 24 ≤ token.length := by omega
    have hne : extension ≠ "" := by simpa using he
    rw [Except.ok.injEq, eq_comm]
    exact ⟨fun h => ⟨hne, henough, h⟩, fun h => h.2.2⟩

/-- A key that the cipher takes: 32 upper-case hexadecimal digits. -/
structure Fit (key : String) : Prop where
  length : key.toList.length = 32
  digits : key.toList ⊆ Hex.upperDigits

theorem Fit.length_toBytes {key : String} (h : Fit key) : (Text.toBytes key).length = 32 := by
  have hascii : ∀ c ∈ key.toList, c.toNat < 128 := fun c hc => Hex.toNat_lt_of_mem_upperDigits c (h.digits hc)
  rw [Text.toBytes_eq_utf8, Text.utf8_of_ascii hascii, List.length_map, h.length]

theorem Fit.exists_cipherKey {key : String} (h : Fit key) : ∃ k : Aes.Key, k.bytes = Text.toBytes key :=
  ⟨⟨Text.toBytes key, Or.inr (Or.inr h.length_toBytes)⟩, rfl⟩

/-- Twelve bytes of token are enough. -/
theorem exists_derive {extension : String} (he : extension ≠ "") {b : Bytes} (hb : 12 ≤ b.length) :
    ∃ key, derive extension (Hex.encodeUpper b) = .ok key ∧ Fit key := by
  have hlong : 24 ≤ (Hex.encodeUpper b).length := by
    rw [Hex.encodeUpper, String.length_ofList, Hex.length_encodeUpperChars]
    omega
  refine ⟨_, derive_eq_ok_iff.2 ⟨he, hlong, rfl⟩, ⟨?_, ?_⟩⟩
  · rw [String.toList_ofList, length_woven extension hlong]
  · rw [String.toList_ofList, woven, toList_digest, Hex.toList_encodeUpper]
    intro c hc
    simp only [List.mem_append, List.mem_reverse] at hc
    rcases hc with (hc | hc) | hc
    · exact Hex.encodeUpperChars_subset _ ((evens_odds_sublist _).1.subset (List.mem_of_mem_take hc))
    · exact Hex.encodeUpperChars_subset _ ((evens_odds_sublist _).1.subset (List.mem_of_mem_take hc))
    · exact Hex.encodeUpperChars_subset _ ((evens_odds_sublist _).2.subset (List.mem_of_mem_take hc))

end ChatWire.RequestKey
