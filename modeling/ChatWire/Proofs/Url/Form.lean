import ChatWire.Proofs.Text.Lossy
import ChatWire.Proofs.Text.Percent
import ChatWire.Url.Form

/-! Pairs read back. What is written for a name or a value holds none of the signs that keep pairs apart, so the
written form of a list of pairs has just these pairs in it, and so has a text that it is put behind. -/

namespace ChatWire.Form

/-! Names and values. -/

theorem lt_of_isPlain {x : UInt8} (h : isPlain x) : x.toNat < 128 := by
  simp only [isPlain, Bool.or_eq_true, Bool.and_eq_true, decide_eq_true_eq, beq_iff_eq, UInt8.le_iff_toNat_le] at h
  rcases h with (((((⟨-, h⟩ | ⟨-, h⟩) | ⟨-, h⟩) | rfl) | rfl) | rfl) | rfl
  · exact h.trans_lt (by decide)
  · exact h.trans_lt (by decide)
  · exact h.trans_lt (by decide)
  all_goals decide

theorem isPlain_upperDigit : ∀ n < 16, isPlain (UInt8.ofNat (Hex.upperDigit n).toNat) := by decide

/-- what a written name or value is made of -/
theorem mem_encodeBytes {b : Bytes} {x : UInt8} (h : x ∈ encodeBytes b) :
    isPlain x ∨ x = 43 ∨ x = Percent.percent := by
  obtain ⟨y, -, hx⟩ := List.mem_flatMap.1 h
  unfold encodeByte at hx
  split_ifs at hx with hplain hblank
  · rw [List.mem_singleton.1 hx]
    exact .inl hplain
  · exact .inr (.inl (List.mem_singleton.1 hx))
  · have hy := y.toNat_lt
    simp only [Percent.escape, List.mem_cons, List.not_mem_nil, or_false] at hx
    rcases hx with rfl | rfl | rfl
    · exact .inr (.inr rfl)
    · exact .inl (isPlain_upperDigit _ (by omega))
    · exact .inl (isPlain_upperDigit _ (by omega))

theorem lt_of_mem_encodeBytes {b : Bytes} : ∀ x ∈ encodeBytes b, x.toNat < 128 := by
  intro x hx
  rcases mem_encodeBytes hx with h | rfl | rfl
  · exact lt_of_isPlain h
  · decide
  · decide

/-- A sign that has a meaning of its own does not come in what is written. -/
theorem not_mem_encodeBytes {x : UInt8} (hplain : isPlain x = false) (hblank : x ≠ 43) (hpercent : x ≠ Percent.percent)
    (b : Bytes) : x ∉ encodeBytes b := by
  intro hx
  rcases mem_encodeBytes hx with h | h | h
  · rw [hplain] at h
    cases h
  · exact hblank h
  · exact hpercent h

theorem toBytes_encode (s : String) : Text.toBytes (encode s) = encodeBytes (Text.toBytes s) :=
  Text.toBytes_ofList_map lt_of_mem_encodeBytes

/-- Once the blanks are back, what is written is an escaped form. -/
theorem escapes_encodeBytes (b : Bytes) :
    Percent.Escapes ((encodeBytes b).map fun x => if x = 43 then 32 else x) b := by
  have hdigit : ∀ n < 16, UInt8.ofNat (Hex.upperDigit n).toNat ≠ 43 := by decide
  induction b with
  | nil => exact .nil
  | cons y r ih =>
    have hcons : encodeBytes (y :: r) = encodeByte y ++ encodeBytes r := List.flatMap_cons
    have hy := y.toNat_lt
    rw [hcons, List.map_append]
    unfold encodeByte
    split_ifs with hplain hblank
    · have hplus : y ≠ 43 := by rintro rfl; cases hplain
      have hpercent : y ≠ Percent.percent := by rintro rfl; cases hplain
      rw [List.map_singleton, if_neg hplus]
      exact .plain hpercent ih
    · subst hblank
      exact .plain (by decide) ih
    · have hnib : UInt8.ofNat (16 * (y.toNat / 16) + y.toNat % 16) = y := by
        rw [Nat.div_add_mod, UInt8.ofNat_toNat]
      have hescape := Percent.Escapes.escape (Percent.hexValue?_upperDigit (y.toNat / 16) (by omega))
        (Percent.hexValue?_upperDigit (y.toNat % 16) (by omega)) ih
      rw [hnib] at hescape
      simp only [Percent.escape, List.map_cons, List.map_nil, hdigit (y.toNat / 16) (by omega),
        hdigit (y.toNat % 16) (by omega), if_false]
      exact hescape

theorem decode_encodeBytes (s : String) : decode (encodeBytes (Text.toBytes s)) = s := by
  rw [decode, decodeBytes, (escapes_encodeBytes _).decodeBytes_eq, Text.lossy_toBytes]

/-! Pairs. -/

theorem toBytes_encodePair (p : String × String) :
    Text.toBytes (encodePair p) = encodeBytes (Text.toBytes p.1) ++ 61 :: encodeBytes (Text.toBytes p.2) := by
  rw [encodePair, Text.toBytes_append, Text.toBytes_append, toBytes_encode, toBytes_encode, List.append_assoc]
  rfl

theorem decodePair_encodePair (p : String × String) : decodePair (Text.toBytes (encodePair p)) = p := by
  have hname : (Text.toBytes (encodePair p)).takeWhile (· != 61) = encodeBytes (Text.toBytes p.1) := by
    have hall : ∀ x ∈ encodeBytes (Text.toBytes p.1), x != 61 := by
      intro x hx
      rw [bne_iff_ne]
      rintro rfl
      exact not_mem_encodeBytes (by decide) (by decide) (by decide) _ hx
    rw [toBytes_encodePair, List.takeWhile_append_of_pos hall, List.takeWhile_cons_of_neg (by decide),
      List.append_nil]
  have hvalue : (Text.toBytes (encodePair p)).drop ((encodeBytes (Text.toBytes p.1)).length + 1) =
      encodeBytes (Text.toBytes p.2) := by
    rw [toBytes_encodePair, List.drop_append, List.drop_eq_nil_of_le (Nat.le_succ _), Nat.add_sub_cancel_left]
    rfl
  rw [decodePair]
  simp only [hname, hvalue, decode_encodeBytes]

/-! Lists of pairs. -/

theorem splitBytes_ne_nil (separator : UInt8) (b : Bytes) : splitBytes separator b ≠ [] := by
  cases b with
  | nil => simp [splitBytes]
  | cons x r =>
    rw [splitBytes]
    split_ifs
    · simp
    · split <;> simp

theorem splitBytes_of_not_mem {separator : UInt8} {b : Bytes} (h : separator ∉ b) : splitBytes separator b = [b] := by
  induction b with
  | nil => rfl
  | cons x r ih =>
    rw [List.mem_cons, not_or] at h
    rw [splitBytes, if_neg (Ne.symm h.1), ih h.2]

/-- The parts of a text and of what is put behind it are those of each. -/
theorem splitBytes_append (separator : UInt8) (b r : Bytes) :
    splitBytes separator (b ++ separator :: r) = splitBytes separator b ++ splitBytes separator r := by
  induction b with
  | nil => simp [splitBytes]
  | cons x b ih =>
    rw [List.cons_append, splitBytes, splitBytes, ih]
    split_ifs
    · rfl
    · cases hb : splitBytes separator b with
      | nil => exact absurd hb (splitBytes_ne_nil separator b)
      | cons p ps => rfl

theorem decodePairs_append (s t : String) : decodePairs (s ++ "&" ++ t) = decodePairs s ++ decodePairs t := by
  have hbytes : Text.toBytes (s ++ "&" ++ t) = Text.toBytes s ++ 38 :: Text.toBytes t := by
    rw [Text.toBytes_append, Text.toBytes_append, List.append_assoc]
    rfl
  rw [decodePairs, hbytes, splitBytes_append, List.filter_append, List.map_append]
  rfl

theorem decodePairs_encodePair (p : String × String) : decodePairs (encodePair p) = [p] := by
  have hsep : (38 : UInt8) ∉ Text.toBytes (encodePair p) := by
    rw [toBytes_encodePair, List.mem_append, List.mem_cons]
    rintro (h | h | h)
    · exact not_mem_encodeBytes (by decide) (by decide) (by decide) _ h
    · cases h
    · exact not_mem_encodeBytes (by decide) (by decide) (by decide) _ h
  have hne : (Text.toBytes (encodePair p)).isEmpty = false := by simp [toBytes_encodePair]
  rw [decodePairs, splitBytes_of_not_mem hsep, List.filter_singleton, hne]
  exact congrArg (fun q => [q]) (decodePair_encodePair p)

theorem encodePairs_cons (p q : String × String) (r : List (String × String)) :
    encodePairs (p :: q :: r) = encodePair p ++ "&" ++ encodePairs (q :: r) := by
  rw [encodePairs, List.map_cons, List.map_cons, String.intercalate_cons_cons]
  rfl

/-- The written form of some pairs has these pairs in it. -/
theorem decodePairs_encodePairs (pairs : List (String × String)) : decodePairs (encodePairs pairs) = pairs := by
  induction pairs with
  | nil => rfl
  | cons p r ih =>
    cases r with
    | nil => exact decodePairs_encodePair p
    | cons q r => rw [encodePairs_cons, decodePairs_append, decodePairs_encodePair, ih, List.singleton_append]

end ChatWire.Form
