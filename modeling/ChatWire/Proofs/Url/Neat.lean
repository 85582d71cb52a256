import ChatWire.Proofs.Text.Percent
import ChatWire.Proofs.Url.Form
import ChatWire.Url.Parser

/-! Queries that are as they are written. What has been escaped is not escaped again, and nor are written pairs. -/

namespace ChatWire.Url

/-- Whether a query has nothing left that would be escaped. -/
def IsNeat (special : Bool) (q : List Char) : Prop :=
  ∀ c ∈ q, c.toNat < 128 ∧ escapedInQuery special (UInt8.ofNat c.toNat) = false

instance (special : Bool) (q : List Char) : Decidable (IsNeat special q) := List.decidableBAll _ q

theorem IsNeat.append {special : Bool} {q r : List Char} (hq : IsNeat special q) (hr : IsNeat special r) :
    IsNeat special (q ++ r) := fun c hc => (List.mem_append.1 hc).elim (hq c) (hr c)

/-- A number sign would be escaped. -/
theorem IsNeat.hash_not_mem {special : Bool} {q : List Char} (h : IsNeat special q) : '#' ∉ q := by
  intro hc
  have hset : escapedInQuery special (UInt8.ofNat '#'.toNat) = true := by
    cases special <;> decide
  rw [(h _ hc).2] at hset
  cases hset

/-- Blanks and controls would be. -/
theorem IsNeat.lt {special : Bool} {q : List Char} (h : IsNeat special q) : ∀ c ∈ q, 32 < c.toNat := by
  intro c hc
  obtain ⟨hascii, hkept⟩ := h c hc
  by_contra hle
  have hblank : ∀ n < 33, escapedInQuery special (UInt8.ofNat n) = true := by
    cases special <;> decide
  rw [hblank _ (by omega)] at hkept
  cases hkept

theorem IsNeat.escape_eq {special : Bool} {q : List Char} (h : IsNeat special q) :
    escape (escapedInQuery special) q = String.ofList q := by
  have hbyte : ∀ c ∈ q, (UInt8.ofNat c.toNat).toNat = c.toNat := by
    intro c hc
    have := (h c hc).1
    exact UInt8.toNat_ofNat_of_lt' (by simp only [UInt8.size]; omega)
  have hbytes : Text.toBytes (String.ofList q) = q.map fun c => UInt8.ofNat c.toNat := by
    rw [Text.toBytes_ofList, Text.utf8_of_ascii fun c hc => (h c hc).1]
  have hkept : ∀ x ∈ q.map fun c => UInt8.ofNat c.toNat, (x ≥ 128 || escapedInQuery special x) = false := by
    intro x hx
    obtain ⟨c, hc, rfl⟩ := List.mem_map.1 hx
    obtain ⟨hascii, hset⟩ := h c hc
    rw [hset, Bool.or_false, decide_eq_false_iff_not, ge_iff_le, UInt8.not_le, UInt8.lt_iff_toNat_lt,
      hbyte c hc]
    exact hascii
  have hchars : (q.map fun c => UInt8.ofNat c.toNat).map (fun x => Char.ofNat x.toNat) = q := by
    rw [List.map_map]
    refine (List.map_congr_left fun c hc => ?_).trans (List.map_id q)
    rw [Function.comp_apply, hbyte c hc, Char.ofNat_toNat, id_eq]
  rw [escape, Percent.encode, hbytes, Percent.encodeBytes_of_kept hkept, hchars]

theorem isNeat_escape (special : Bool) (s : List Char) : IsNeat special (escape (escapedInQuery special) s).toList := by
  intro c hc
  refine ⟨Percent.lt_of_mem_encode hc, ?_⟩
  rcases Percent.mem_encode hc with ⟨-, hset⟩ | rfl | ⟨n, hn, rfl⟩
  · exact hset
  · cases special <;> decide
  · have hall : ∀ n < 16, escapedInQuery special (UInt8.ofNat (Hex.upperDigit n).toNat) = false := by
      cases special <;> decide
    exact hall n hn

theorem isNeat_encode (special : Bool) (s : String) : IsNeat special (Form.encode s).toList := by
  intro c hc
  rw [Form.encode, Form.ascii, String.toList_ofList] at hc
  obtain ⟨x, hx, rfl⟩ := List.mem_map.1 hc
  have hlt := Form.lt_of_mem_encodeBytes x hx
  rw [Text.toNat_charOfNat (by omega), UInt8.ofNat_toNat]
  refine ⟨hlt, ?_⟩
  have hplain : ∀ n < 128, Form.isPlain (UInt8.ofNat n) → escapedInQuery special (UInt8.ofNat n) = false := by
    cases special <;> decide
  rcases Form.mem_encodeBytes hx with h | rfl | rfl
  · have := hplain x.toNat hlt
    rw [UInt8.ofNat_toNat] at this
    exact this h
  · cases special <;> decide
  · cases special <;> decide

theorem isNeat_equals (special : Bool) : IsNeat special ['='] := by
  cases special <;> decide

theorem isNeat_ampersand (special : Bool) : IsNeat special ['&'] := by
  cases special <;> decide

theorem isNeat_encodePairs (special : Bool) (pairs : List (String × String)) :
    IsNeat special (Form.encodePairs pairs).toList := by
  have hpair (p : String × String) : IsNeat special (Form.encodePair p).toList := by
    rw [Form.encodePair, String.toList_append, String.toList_append]
    exact ((isNeat_encode special p.1).append (isNeat_equals special)).append (isNeat_encode special p.2)
  induction pairs with
  | nil => exact fun c hc => absurd hc (by simp [Form.encodePairs])
  | cons p r ih =>
    cases r with
    | nil => exact hpair p
    | cons q r =>
      rw [Form.encodePairs_cons, String.toList_append, String.toList_append]
      exact ((hpair p).append (isNeat_ampersand special)).append ih

end ChatWire.Url
