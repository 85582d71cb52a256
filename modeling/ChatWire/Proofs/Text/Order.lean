import ChatWire.Proofs.Text.Utf8
import Mathlib.Data.Char
import Mathlib.Data.List.Lex

/-! The order of texts. Texts are compared character by character, and so are, byte by byte, their UTF-8 forms:
both stand in the same order. -/

namespace ChatWire.Text

open String (utf8EncodeChar)

theorem cons_lt_cons {m n : Nat} (hm : m < 256) (hn : n < 256) (x y : Bytes) :
    UInt8.ofNat m :: x < UInt8.ofNat n :: y ↔ m < n ∨ m = n ∧ x < y := by
  rw [List.cons_lt_cons_iff, UInt8.lt_iff_toNat_lt, ← UInt8.toNat_inj, UInt8.toNat_ofNat_of_lt' hm,
    UInt8.toNat_ofNat_of_lt' hn]

/-- The form of the lesser of two characters comes first, whatever follows either. -/
theorem utf8EncodeChar_lt {c d : Char} (h : c < d) (x y : Bytes) : utf8EncodeChar c ++ x < utf8EncodeChar d ++ y := by
  have hcd : c.val.toNat < d.val.toNat := h
  have hmax : d.val.toNat < 0x110000 := by
    have hvalid : d.val.toNat < 0xd800 ∨ 0xdfff < d.val.toNat ∧ d.val.toNat < 0x110000 := d.valid
    omega
  unfold utf8EncodeChar
  simp only
  generalize c.val.toNat = v at hcd ⊢
  generalize d.val.toNat = w at hcd hmax ⊢
  have hdigit (m n : Nat) : m < n → m / 64 < n / 64 ∨ m / 64 = n / 64 ∧ m % 64 < n % 64 := by omega
  have hlast := hdigit v w hcd
  have hthird := hdigit (v / 64) (w / 64)
  have hsecond := hdigit (v / 4096) (w / 4096)
  simp only [Nat.div_div_eq_div_mul] at hthird hsecond
  have hfirst : v / 262144 % 8 = v / 262144 ∧ w / 262144 % 8 = w / 262144 :=
    ⟨Nat.mod_eq_of_lt (by omega), Nat.mod_eq_of_lt (by omega)⟩
  -- the longer form has the greater first byte, and forms of one length are numbers in base 64
  split_ifs <;> first
    | omega
    | simp (disch := omega) only [List.cons_append, List.nil_append, cons_lt_cons]
      omega

theorem utf8_lt_utf8 {l m : List Char} (h : l < m) : utf8 l < utf8 m := by
  induction h with
  | @nil d m =>
    obtain ⟨b, r, hbytes⟩ := List.exists_cons_of_ne_nil (String.utf8EncodeChar_ne_nil (c := d))
    rw [utf8_cons, hbytes]
    exact List.nil_lt_cons ..
  | rel h => exact utf8EncodeChar_lt h ..
  | cons _ ih =>
    rw [utf8_cons, utf8_cons]
    exact List.append_left_lt ih

/-- Texts stand in the order of their bytes. -/
theorem toBytes_lt_iff {s t : String} : toBytes s < toBytes t ↔ s < t := by
  rw [toBytes_eq_utf8, toBytes_eq_utf8, String.lt_iff]
  refine ⟨fun h => ?_, utf8_lt_utf8⟩
  rcases lt_trichotomy s.toList t.toList with hlt | heq | hgt
  · exact hlt
  · rw [heq] at h
    exact absurd h (List.lt_irrefl _)
  · exact absurd h (List.lt_asymm (utf8_lt_utf8 hgt))

end ChatWire.Text
