import ChatWire.Json.Lexical
import ChatWire.Json.Printer
import ChatWire.Proofs.Text.Utf8

/-! The small parts of JSON text read back: a quoted string gives the string, a written integer the
integer, whatever follows them. -/

namespace ChatWire.Json

open String (utf8EncodeChar)
open Text (utf8 utf8_cons utf8_append)

namespace Lexical

/-! Strings. -/

/-- what stands between the quotes of a written string -/
def escapedBytes (s : String) : Bytes := utf8 (s.toList.flatMap escapeChar)

theorem utf8_quote (s : String) : utf8 (quote s) = 34 :: (escapedBytes s ++ [34]) := by
  rw [quote, utf8_cons, utf8_append, escapedBytes]
  rfl

/-- The escape of a control character without a letter of its own spells its number. -/
theorem hexUnit?_control : ∀ n < 32,
    hexUnit? 48 48 (UInt8.ofNat (hexDigit (n / 16)).toNat) (UInt8.ofNat (hexDigit (n % 16)).toNat) = some n := by
  decide

theorem hexDigit_lt : ∀ n < 16, (hexDigit n).toNat < 128 := by decide

theorem utf8_control {n : Nat} (h : n < 32) (r : Bytes) :
    utf8 ['\\', 'u', '0', '0', hexDigit (n / 16), hexDigit (n % 16)] ++ r =
      92 :: 117 :: 48 :: 48 :: UInt8.ofNat (hexDigit (n / 16)).toNat :: UInt8.ofNat (hexDigit (n % 16)).toNat :: r := by
  rw [Text.utf8_of_ascii]
  · rfl
  · have h1 := hexDigit_lt (n / 16) (by omega)
    have h2 := hexDigit_lt (n % 16) (by omega)
    simp [h1, h2]

/-- a byte that stands for itself in a string -/
def IsBare (b : UInt8) : Prop := 32 ≤ b.toNat ∧ b ≠ 34 ∧ b ≠ 92

theorem skipString_bare {b : UInt8} (hb : IsBare b) (r : Bytes) : skipString (b :: r) = skipString r := by
  obtain ⟨hge, hquote, hslash⟩ := hb
  have hlt : ¬ b < 32 := by
    rw [UInt8.lt_iff_toNat_lt]
    exact Nat.not_lt.2 hge
  rw [skipString.eq_def]
  split <;> simp_all

theorem readString_bare {b : UInt8} (hb : IsBare b) (done r : Bytes) :
    readString done (b :: r) = readString (b :: done) r := by
  obtain ⟨hge, hquote, hslash⟩ := hb
  have hlt : ¬ b < 32 := by
    rw [UInt8.lt_iff_toNat_lt]
    exact Nat.not_lt.2 hge
  rw [readString.eq_def]
  split <;> simp_all

theorem skipString_append_bare {l : Bytes} (h : ∀ b ∈ l, IsBare b) (r : Bytes) :
    skipString (l ++ r) = skipString r := by
  induction l with
  | nil => rfl
  | cons b l ih =>
    rw [List.cons_append, skipString_bare (h b (List.mem_cons_self ..)),
      ih fun c hc => h c (List.mem_cons_of_mem _ hc)]

theorem readString_append_bare {l : Bytes} (h : ∀ b ∈ l, IsBare b) (done r : Bytes) :
    readString done (l ++ r) = readString (l.reverse ++ done) r := by
  induction l generalizing done with
  | nil => rfl
  | cons b l ih =>
    rw [List.cons_append, readString_bare (h b (List.mem_cons_self ..)),
      ih (fun c hc => h c (List.mem_cons_of_mem _ hc)), List.reverse_cons, List.append_assoc,
      List.singleton_append]

theorem isBare_of_mem {c : Char} (hc : 32 ≤ c.toNat) (hquote : c ≠ '"') (hslash : c ≠ '\\') :
    ∀ b ∈ utf8EncodeChar c, IsBare b := by
  rcases Nat.lt_or_ge c.toNat 128 with hlt | hge
  · have hne (d : Char) (hd : c ≠ d) (hd' : d.toNat < 128) : UInt8.ofNat c.toNat ≠ UInt8.ofNat d.toNat := by
      intro h
      have h := congrArg UInt8.toNat h
      rw [UInt8.toNat_ofNat', UInt8.toNat_ofNat', Nat.mod_eq_of_lt (by omega), Nat.mod_eq_of_lt (by omega)] at h
      exact hd (by rw [← Char.ofNat_toNat c, h, Char.ofNat_toNat])
    rw [Text.utf8EncodeChar_ascii hlt]
    intro b hb
    obtain rfl := List.mem_singleton.1 hb
    refine ⟨?_, hne '"' hquote (by decide), hne '\\' hslash (by decide)⟩
    rw [UInt8.toNat_ofNat', Nat.mod_eq_of_lt (by omega)]
    exact hc
  · intro b hb
    have hb := Text.le_of_mem_utf8EncodeChar hge b hb
    refine ⟨by omega, ?_, ?_⟩ <;> rintro rfl <;> revert hb <;> decide

theorem skipString_escapeChar (c : Char) (r : Bytes) : skipString (utf8 (escapeChar c) ++ r) = skipString r := by
  unfold escapeChar
  split_ifs with h1 h2 h3 h4 h5 h6 h7 h8
  case pos => rfl
  case pos => rfl
  case pos => rfl
  case pos => rfl
  case pos => rfl
  case pos => rfl
  case pos => rfl
  case pos =>
    rw [utf8_control h8, skipString, hexUnit?_control _ h8]
    rfl
  case neg =>
    rw [show utf8 [c] = utf8EncodeChar c by simp [utf8_cons],
      skipString_append_bare (isBare_of_mem (by omega) h1 h2)]

theorem readString_escapeChar (c : Char) (done r : Bytes) :
    readString done (utf8 (escapeChar c) ++ r) = readString ((utf8EncodeChar c).reverse ++ done) r := by
  unfold escapeChar
  split_ifs with h1 h2 h3 h4 h5 h6 h7 h8
  case pos => subst h1; rfl
  case pos => subst h2; rfl
  case pos => subst h3; rfl
  case pos => subst h4; rfl
  case pos => subst h5; rfl
  case pos => subst h6; rfl
  case pos => subst h7; rfl
  case pos =>
    rw [utf8_control h8, readString, hexUnit?_control _ h8]
    simp only
    rw [if_neg (by omega), if_pos (by omega), Char.ofNat_toNat]
  case neg =>
    rw [show utf8 [c] = utf8EncodeChar c by simp [utf8_cons],
      readString_append_bare (isBare_of_mem (by omega) h1 h2)]

theorem skipString_escapedBytes (s : String) (r : Bytes) : skipString (escapedBytes s ++ 34 :: r) = .ok r := by
  unfold escapedBytes
  induction s.toList with
  | nil => rfl
  | cons c l ih => rw [List.flatMap_cons, utf8_append, List.append_assoc, skipString_escapeChar, ih]

theorem readString_escapedBytes (s : String) (r : Bytes) :
    readString [] (escapedBytes s ++ 34 :: r) = .ok (Text.toBytes s) := by
  have hrun (l : List Char) (done : Bytes) :
      readString done (utf8 (l.flatMap escapeChar) ++ 34 :: r) = .ok (done.reverse ++ utf8 l) := by
    induction l generalizing done with
    | nil => simp [readString]
    | cons c l ih =>
      rw [List.flatMap_cons, utf8_append, List.append_assoc, readString_escapeChar, ih, utf8_cons]
      simp
  rw [escapedBytes, hrun, List.reverse_nil, List.nil_append, ← Text.toBytes_eq_utf8]

theorem stringText_escapedBytes (s : String) (r : Bytes) : stringText (escapedBytes s ++ 34 :: r) = .ok s := by
  rw [stringText, readString_escapedBytes]
  simp [bind, Except.bind, Text.ofBytes?_toBytes, pure, Except.pure]

/-! Numbers. -/

/-- the decimal digits of `n` -/
def digitBytes (n : Nat) : Bytes := utf8 (Nat.toDigits 10 n)

theorem digitBytes_eq_map (n : Nat) : digitBytes n = (Nat.toDigits 10 n).map fun c => UInt8.ofNat c.toNat := by
  apply Text.utf8_of_ascii
  intro c hc
  have := Nat.isDigit_of_mem_toDigits (by decide) (by decide) hc
  simp only [Char.isDigit, Bool.and_eq_true, decide_eq_true_eq, UInt32.le_iff_toNat_le] at this
  have h57 : c.toNat ≤ 57 := this.2
  omega

theorem toNat_digit {c : Char} (hc : c.isDigit) :
    (UInt8.ofNat c.toNat).toNat = c.toNat ∧ 48 ≤ c.toNat ∧ c.toNat ≤ 57 := by
  simp only [Char.isDigit, Bool.and_eq_true, decide_eq_true_eq, UInt32.le_iff_toNat_le] at hc
  have h48 : 48 ≤ c.toNat := hc.1
  have h57 : c.toNat ≤ 57 := hc.2
  exact ⟨by rw [UInt8.toNat_ofNat', Nat.mod_eq_of_lt (by omega)], h48, h57⟩

theorem isDigit_of_mem_digitBytes {n : Nat} : ∀ b ∈ digitBytes n, isDigit b := by
  intro b hb
  rw [digitBytes_eq_map] at hb
  obtain ⟨c, hc, rfl⟩ := List.mem_map.1 hb
  obtain ⟨hn, h48, h57⟩ := toNat_digit (Nat.isDigit_of_mem_toDigits (by decide) (by decide) hc)
  simp only [isDigit, Bool.and_eq_true, decide_eq_true_eq, UInt8.le_iff_toNat_le, hn]
  exact ⟨h48, h57⟩

theorem digitBytes_ne_nil (n : Nat) : digitBytes n ≠ [] := by
  rw [digitBytes_eq_map, Ne, List.map_eq_nil_iff]
  exact Nat.toDigits_ne_nil

theorem digitsToNat_digitBytes (n : Nat) : digitsToNat (digitBytes n) = n := by
  have hfold (l : List Char) (hl : ∀ c ∈ l, c.isDigit) (k : Nat) :
      (l.map fun c => UInt8.ofNat c.toNat).foldl (fun n d => n * 10 + (d.toNat - 48)) k =
        Nat.ofDigitChars 10 l k := by
    induction l generalizing k with
    | nil => rfl
    | cons c l ih =>
      rw [List.map_cons, List.foldl_cons, ih fun d hd => hl d (List.mem_cons_of_mem _ hd), Nat.ofDigitChars_cons,
        (toNat_digit (hl c (List.mem_cons_self ..))).1, Nat.mul_comm]
      rfl
  rw [digitsToNat, digitBytes_eq_map,
    hfold _ (fun c hc => Nat.isDigit_of_mem_toDigits (by decide) (by decide) hc), Nat.ofDigitChars_ten_toDigits]

theorem head?_digitBytes {n : Nat} (h : 10 ≤ n) : (digitBytes n).head? = (digitBytes (n / 10)).head? := by
  obtain ⟨b, l, hb⟩ := List.exists_cons_of_ne_nil (digitBytes_ne_nil (n / 10))
  rw [hb, digitBytes, Nat.toDigits_of_base_le (by decide) h, utf8_append, show utf8 _ = b :: l from hb]
  rfl

/-- Only the number zero is written with a leading zero. -/
theorem head?_digitBytes_ne {n : Nat} (h : 0 < n) : (digitBytes n).head? ≠ some 48 := by
  induction n using Nat.strongRecOn with
  | ind n ih =>
    rcases Nat.lt_or_ge n 10 with hlt | hge
    · revert h
      clear ih
      revert n
      decide
    · rw [head?_digitBytes hge]
      exact ih (n / 10) (by omega) (by omega)

/-- What may follow a number: nothing that a number could go on with. -/
def Ends (r : Bytes) : Prop := ∀ b ∈ r.head?, b = 44 ∨ b = 93 ∨ b = 125

theorem ends_nil : Ends [] := by simp [Ends]

theorem ends_cons {b : UInt8} (h : b = 44 ∨ b = 93 ∨ b = 125) (r : Bytes) : Ends (b :: r) := by simpa [Ends] using h

/-- What a number cannot go on with. -/
def Stops (r : Bytes) : Prop := ∀ b ∈ r.head?, isDigit b = false ∧ b ≠ 46 ∧ b ≠ 101 ∧ b ≠ 69

theorem Ends.stops {r : Bytes} (h : Ends r) : Stops r := by
  intro b hb
  rcases h b hb with rfl | rfl | rfl <;> decide

theorem digits_append {n : Nat} {r : Bytes} (hr : Stops r) : digits (digitBytes n ++ r) = .ok (digitBytes n, r) := by
  have hall := isDigit_of_mem_digitBytes (n := n)
  obtain ⟨b, l, hb⟩ := List.exists_cons_of_ne_nil (digitBytes_ne_nil n)
  have hstop : r.takeWhile isDigit = [] ∧ r.dropWhile isDigit = r := by
    cases r with
    | nil => exact ⟨rfl, rfl⟩
    | cons c r => simp [(hr c rfl).1]
  have htake : (digitBytes n ++ r).takeWhile isDigit = digitBytes n := by
    rw [List.takeWhile_append_of_pos hall, hstop.1, List.append_nil]
  have hdrop : (digitBytes n ++ r).dropWhile isDigit = r := by rw [List.dropWhile_append_of_pos hall, hstop.2]
  have hfirst : isDigit b := hall b (by rw [hb]; exact List.mem_cons_self ..)
  have hstep : digits (digitBytes n ++ r) =
      .ok ((digitBytes n ++ r).takeWhile isDigit, (digitBytes n ++ r).dropWhile isDigit) := by
    rw [hb, List.cons_append, digits, if_pos hfirst]
  rw [hstep, htake, hdrop]

theorem wholePart_append {n : Nat} {r : Bytes} (hr : Stops r) :
    wholePart (digitBytes n ++ r) = .ok (digitBytes n, r) := by
  have hzero : ¬ ((digitBytes n).head? = some 48 ∧ (digitBytes n).length > 1) := by
    rintro ⟨hhead, hlen⟩
    rcases Nat.eq_zero_or_pos n with rfl | hpos
    · revert hlen
      decide
    · exact head?_digitBytes_ne hpos hhead
  rw [wholePart, digits_append hr]
  simp only [bind, Except.bind, pure, Except.pure]
  rw [if_neg hzero]

theorem fractionPart_of_stops {r : Bytes} (hr : Stops r) : fractionPart r = .ok ([], r) := by
  cases r with
  | nil => rfl
  | cons b r => simp [fractionPart, (hr b rfl).2.1]

theorem exponentPart_of_stops {r : Bytes} (hr : Stops r) : exponentPart r = .ok (none, r) := by
  cases r with
  | nil => rfl
  | cons b r => simp [exponentPart, (hr b rfl).2.2]

/-- A minus sign is taken off; digits that follow it, or nothing, make an integer. -/
theorem numeral_digits {n : Nat} {r : Bytes} (hr : Stops r) :
    numeral (digitBytes n ++ r) = .ok (⟨false, digitBytes n, [], none⟩, r) ∧
      numeral (45 :: (digitBytes n ++ r)) = .ok (⟨true, digitBytes n, [], none⟩, r) := by
  constructor
  · obtain ⟨b, l, hb⟩ := List.exists_cons_of_ne_nil (digitBytes_ne_nil n)
    have hne : b ≠ 45 := by
      rintro rfl
      exact absurd (isDigit_of_mem_digitBytes (n := n) 45 (by rw [hb]; exact List.mem_cons_self ..)) (by decide)
    have hwhole := wholePart_append hr (n := n)
    rw [hb, List.cons_append] at hwhole ⊢
    simp [numeral, hne, hwhole, fractionPart_of_stops hr, exponentPart_of_stops hr, bind, Except.bind, pure,
      Except.pure]
  · simp only [numeral, wholePart_append hr, fractionPart_of_stops hr, exponentPart_of_stops hr, bind, Except.bind,
      pure, Except.pure]

theorem toChars_int (n : Int) :
    (Number.int n).toChars = if n < 0 then '-' :: Nat.toDigits 10 n.natAbs else Nat.toDigits 10 n.natAbs := by
  cases n with
  | ofNat n => simp [Number.toChars, toString, Int.repr]
  | negSucc n => simp [Number.toChars, toString, Int.repr, Int.negSucc_lt_zero]

/-- An integer that 64 bits hold is read back from its digits. -/
theorem numeral_int {n : Int} (hlow : leastInt64 ≤ n) (hhigh : n < UInt64.size) {r : Bytes} (hr : Stops r) :
    ∃ m : Numeral, numeral (utf8 (Number.int n).toChars ++ r) = .ok (m, r) ∧ m.number = .ok (.int n) := by
  rw [toChars_int]
  split_ifs with hneg
  · refine ⟨_, (numeral_digits hr).2, ?_⟩
    have hval : -((n.natAbs : Nat) : Int) = n := by omega
    simp only [Numeral.number, digitsToNat_digitBytes, if_true, hval]
    rw [if_pos ⟨rfl, rfl, hlow, hneg⟩]
  · refine ⟨_, (numeral_digits hr).1, ?_⟩
    have hval : ((n.natAbs : Nat) : Int) = n := by omega
    simp only [Numeral.number, digitsToNat_digitBytes, Bool.false_eq_true, if_false, hval]
    rw [if_pos ⟨rfl, rfl, hhigh⟩]

end Lexical

end ChatWire.Json
