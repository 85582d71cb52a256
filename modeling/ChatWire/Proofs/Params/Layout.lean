import ChatWire.Proofs.Params.Key
import ChatWire.Proofs.Params.Token

/-! Where each character of a key comes from, and what it gives away. A key shows the first twenty-four characters of
the token and nothing else of it, and those come from the first block of the device's text. -/

namespace ChatWire

namespace RequestKey

theorem getElem?_evens_odds {α : Type} (l : List α) (i : Nat) :
    (evens l)[i]? = l[2 * i]? ∧ (odds l)[i]? = l[2 * i + 1]? := by
  induction l generalizing i with
  | nil => simp [evens, odds]
  | cons a r ih =>
    constructor
    · cases i with
      | zero => rfl
      | succ i => rw [evens, List.getElem?_cons_succ, (ih i).2, Nat.mul_succ, List.getElem?_cons_succ]
    · rw [odds, (ih i).1, List.getElem?_cons_succ]

/-- The place in the digest or in the token that each character of a key comes from. -/
structure Layout (extension token key : String) : Prop where
  length : key.length = 32
  front : ∀ i < 8, key.toList[i]? = (digest extension).toList[2 * i]?
  middle : ∀ i, 8 ≤ i → i < 20 → key.toList[i]? = token.toList[2 * (i - 8)]?
  back : ∀ i, 20 ≤ i → i < 32 → key.toList[i]? = token.toList[2 * (31 - i) + 1]?

theorem layout_woven (extension : String) {token : String} (h : 24 ≤ token.length) :
    Layout extension token (String.ofList (woven extension token)) := by
  obtain ⟨hfront, hmiddle, hback⟩ := length_parts extension h
  constructor
  · rw [String.length_ofList, length_woven extension h]
  · intro i hi
    rw [String.toList_ofList, woven, List.append_assoc, List.getElem?_append_left (by omega),
      List.getElem?_take, if_pos hi, (getElem?_evens_odds _ i).1]
  · intro i hlow hhigh
    rw [String.toList_ofList, woven, List.append_assoc, List.getElem?_append_right (by omega), hfront,
      List.getElem?_append_left (by omega), List.getElem?_take, if_pos (by omega), (getElem?_evens_odds _ _).1]
  · intro i hlow hhigh
    have hplace : 12 - 1 - (i - 20) = 31 - i := by omega
    rw [String.toList_ofList, woven, List.getElem?_append_right (by rw [List.length_append]; omega),
      List.length_append, hfront, hmiddle, List.getElem?_reverse (by omega), hback, hplace, List.getElem?_take,
      if_pos (by omega), (getElem?_evens_odds _ _).2]

/-- All places of a token before the twenty-fifth character are shown, and no other. -/
theorem Layout.eq_iff {extension token other key key' : String} (h : Layout extension token key)
    (h' : Layout extension other key') : key = key' ↔ token.toList.take 24 = other.toList.take 24 := by
  constructor
  · rintro rfl
    apply List.ext_getElem?
    intro j
    rw [List.getElem?_take, List.getElem?_take]
    split_ifs with hj
    · obtain ⟨m, rfl | rfl⟩ := Nat.even_or_odd' j
      · have hplace : 2 * m = 2 * (m + 8 - 8) := by omega
        rw [hplace, ← h.middle (m + 8) (by omega) (by omega), h'.middle (m + 8) (by omega) (by omega)]
      · have hplace : 2 * m + 1 = 2 * (31 - (31 - m)) + 1 := by omega
        rw [hplace, ← h.back (31 - m) (by omega) (by omega), h'.back (31 - m) (by omega) (by omega)]
    · rfl
  · intro htake
    have hsame (j : Nat) (hj : j < 24) : token.toList[j]? = other.toList[j]? := by
      rw [← List.getElem?_take_of_lt hj, htake, List.getElem?_take_of_lt hj]
    apply String.toList_injective
    apply List.ext_getElem?
    intro i
    by_cases hfront : i < 8
    · rw [h.front i hfront, h'.front i hfront]
    by_cases hmiddle : i < 20
    · rw [h.middle i (by omega) hmiddle, h'.middle i (by omega) hmiddle, hsame _ (by omega)]
    by_cases hback : i < 32
    · rw [h.back i (by omega) hback, h'.back i (by omega) hback, hsame _ (by omega)]
    · have hlen := h.length
      have hlen' := h'.length
      rw [List.getElem?_eq_none (by rw [String.length_toList]; omega),
        List.getElem?_eq_none (by rw [String.length_toList]; omega)]

theorem layout_of_derive {extension token key : String} (h : derive extension token = .ok key) :
    Layout extension token key := by
  obtain ⟨-, hlong, rfl⟩ := derive_eq_ok_iff.1 h
  exact layout_woven extension hlong

end RequestKey

namespace Device

theorem le_length_token {d : Device} {t : String} (h : d.token = .ok t) : 32 ≤ t.length :=
  Nat.le_of_dvd (tells_of_token h).size.1 (tells_of_token h).size.2

/-- Devices whose texts agree on the first block have tokens that agree on what stands for it. -/
theorem take_token_eq {d e : Device} {t u : String} (ht : d.token = .ok t) (hu : e.token = .ok u)
    (h : (Text.toBytes d.text).take 16 = (Text.toBytes e.text).take 16) : t.toList.take 32 = u.toList.take 32 := by
  obtain ⟨-, rfl⟩ := token_eq_ok_iff.1 ht
  obtain ⟨-, rfl⟩ := token_eq_ok_iff.1 hu
  have hsealed := Cbc.take_sealWith_eq tokenCipherKey (n := 1) h
  rw [Hex.toList_encodeUpper, Hex.toList_encodeUpper, Hex.take_encodeUpperChars 16, Hex.take_encodeUpperChars 16]
  exact congrArg Hex.encodeUpperChars hsealed

end Device

namespace RequestKey

/-- A key is derived from an extension and twenty-four characters of token at least. It shows eight characters of the
extension's digest and the token's first twenty-four, each at a place of its own, and so is the same for all devices
whose texts begin with the same block. -/
theorem keys_show_their_tokens (extension : String) :
    (∀ token, (∃ key, derive extension token = .ok key) ↔ extension ≠ "" ∧ 24 ≤ token.length) ∧
      (∀ token key, derive extension token = .ok key → Layout extension token key) ∧
      (∀ token other key key', derive extension token = .ok key → derive extension other = .ok key' →
        (key = key' ↔ token.toList.take 24 = other.toList.take 24)) ∧
      ∀ (d e : Device) (t u : String), d.token = .ok t → e.token = .ok u →
        (Text.toBytes d.text).take 16 = (Text.toBytes e.text).take 16 → extension ≠ "" →
        ∃ key, derive extension t = .ok key ∧ derive extension u = .ok key := by
  refine ⟨fun token => ?_, fun token key => layout_of_derive, fun token other key key' h h' => ?_, ?_⟩
  · simp only [derive_eq_ok_iff]
    exact ⟨fun ⟨_, hne, hlong, _⟩ => ⟨hne, hlong⟩, fun ⟨hne, hlong⟩ => ⟨_, hne, hlong, rfl⟩⟩
  · exact (layout_of_derive h).eq_iff (layout_of_derive h')
  · intro d e t u ht hu htext hne
    have hlong := Device.le_length_token ht
    have hlong' := Device.le_length_token hu
    have hkey := derive_eq_ok_iff.2 ⟨hne, (by omega : 24 ≤ t.length), rfl⟩
    have hkey' := derive_eq_ok_iff.2 ⟨hne, (by omega : 24 ≤ u.length), rfl⟩
    have hshown : t.toList.take 24 = u.toList.take 24 := by
      have htake := congrArg (List.take 24) (Device.take_token_eq ht hu htext)
      rwa [List.take_take, List.take_take] at htake
    have heq := ((layout_of_derive hkey).eq_iff (layout_of_derive hkey')).2 hshown
    exact ⟨_, hkey, by rw [hkey', heq]⟩

/-- Two devices that differ behind the first sixteen bytes of their texts. Their tokens differ, their keys do not. -/
theorem keys_show_their_tokens_alike :
    let d : Device := ⟨30, "c6a5c1e0-3b0f-4a5c", 1700000000000⟩
    let e : Device := ⟨30, "c6a5c1e0-3b0f", 42⟩
    ∃ t u key, d.token = .ok t ∧ e.token = .ok u ∧ t ≠ u ∧ t.toList.take 24 = u.toList.take 24 ∧
      derive "abc123" t = .ok key ∧ derive "abc123" u = .ok key ∧ Layout "abc123" t key := by
  intro d e
  obtain ⟨-, hlayout, hshown, hdevices⟩ := keys_show_their_tokens "abc123"
  have ht := Device.token_eq (d := d) (by decide)
  have hu := Device.token_eq (d := e) (by decide)
  obtain ⟨key, hkey, hkey'⟩ := hdevices d e _ _ ht hu (by decide) (by decide)
  refine ⟨_, _, key, ht, hu, fun hsame => ?_, (hshown _ _ key key hkey hkey').1 rfl, hkey, hkey', hlayout _ _ hkey⟩
  exact absurd (Device.eq_of_token_eq ht (hsame ▸ hu)) (by decide)

end RequestKey

end ChatWire
