import ChatWire.Bytes.Base64
import ChatWire.Bytes.Basic
import ChatWire.Proofs.Text.Utf8
import Mathlib.Data.List.TakeWhile

/-! Base64 read back. Both decoders invert the encoder, the lenient one whether or not the filler is there,
and whatever white space surrounds the text. -/

namespace ChatWire

namespace Text

/-- Trimming takes off the blanks at both ends, and nothing else. -/
theorem trimChars_surrounded {l m r : List Char} (hl : ∀ c ∈ l, isBlank c) (hm : ∀ c ∈ m, ¬ isBlank c)
    (hr : ∀ c ∈ r, isBlank c) : trimChars (l ++ m ++ r) = m := by
  have hdrop {a b : List Char} (ha : ∀ c ∈ a, isBlank c) :
      (a ++ b).dropWhile isBlank = b.dropWhile isBlank := List.dropWhile_append_of_pos ha
  have hkeep {a b : List Char} (ha : ∀ c ∈ a, ¬ isBlank c) (hb : ∀ c ∈ b, isBlank c) :
      (a ++ b).dropWhile isBlank = if a = [] then [] else a ++ b := by
    cases a with
    | nil => simpa using List.dropWhile_eq_nil_iff.2 hb
    | cons c a => simp [ha c (List.mem_cons_self ..)]
  have hr' : ∀ c ∈ r.reverse, isBlank c := fun c hc => hr c (List.mem_reverse.1 hc)
  unfold trimChars
  rw [List.append_assoc, hdrop hl, hkeep hm hr]
  split_ifs with h
  · simp [h]
  · rw [List.reverse_append, hdrop hr', ← List.append_nil m.reverse,
      hkeep (fun c hc => hm c (List.mem_reverse.1 hc)) (by simp)]
    simp [h]

end Text

namespace Base64

theorem value?_symbol : ∀ n < 64, value? (symbol n) = some n := by decide

theorem symbol_ne_pad : ∀ n < 64, symbol n ≠ pad := by decide

theorem symbol_lt : ∀ n < 64, (symbol n).toNat < 128 := by decide

/-- the numbers of six bits that the symbols of `b` stand for -/
def sextets : Bytes → List Nat
  | [] => []
  | [a] => [a.toNat / 4, a.toNat % 4 * 16]
  | [a, b] => [a.toNat / 4, a.toNat % 4 * 16 + b.toNat / 16, b.toNat % 16 * 4]
  | a :: b :: c :: r =>
    a.toNat / 4 :: (a.toNat % 4 * 16 + b.toNat / 16) :: (b.toNat % 16 * 4 + c.toNat / 64) :: c.toNat % 64
      :: sextets r

/-- how much filler the text of `b` ends with -/
def fillerSize (b : Bytes) : Nat := (3 - b.length % 3) % 3

theorem sextets_lt (b : Bytes) : ∀ n ∈ sextets b, n < 64 := by
  fun_induction sextets b with
  | case1 => simp
  | case2 a =>
    have := a.toNat_lt
    simp only [List.mem_cons, List.not_mem_nil, or_false]
    rintro n (rfl | rfl) <;> omega
  | case3 a b =>
    have := a.toNat_lt
    have := b.toNat_lt
    simp only [List.mem_cons, List.not_mem_nil, or_false]
    rintro n (rfl | rfl | rfl) <;> omega
  | case4 a b c r ih =>
    have := a.toNat_lt
    have := b.toNat_lt
    have := c.toNat_lt
    simp only [List.mem_cons]
    rintro n (rfl | rfl | rfl | rfl | hn) <;> first | exact ih n hn | omega

theorem encodeBytes_eq (b : Bytes) :
    encodeBytes b = (sextets b).map symbol ++ List.replicate (fillerSize b) pad := by
  fun_induction sextets b with
  | case1 => rfl
  | case2 a =>
    have := a.toNat_lt
    simp only [encodeBytes, fillerSize, List.map_cons, List.map_nil, List.length_singleton]
    rw [show a.toNat * 16 / 64 = a.toNat / 4 by omega, show a.toNat * 16 % 64 = a.toNat % 4 * 16 by omega]
    rfl
  | case3 a b =>
    have := a.toNat_lt
    have := b.toNat_lt
    simp only [encodeBytes, fillerSize, List.map_cons, List.map_nil, List.length_cons, List.length_nil]
    rw [show (a.toNat * 256 + b.toNat) * 4 / 4096 = a.toNat / 4 by omega,
      show (a.toNat * 256 + b.toNat) * 4 / 64 % 64 = a.toNat % 4 * 16 + b.toNat / 16 by omega,
      show (a.toNat * 256 + b.toNat) * 4 % 64 = b.toNat % 16 * 4 by omega]
    rfl
  | case4 a b c r ih =>
    have := a.toNat_lt
    have := b.toNat_lt
    have := c.toNat_lt
    have hf : fillerSize (a :: b :: c :: r) = fillerSize r := by
      simp only [fillerSize, List.length_cons]
      omega
    simp only [encodeBytes, List.map_cons, List.cons_append, hf, ih]
    rw [show ((a.toNat * 256 + b.toNat) * 256 + c.toNat) / 262144 = a.toNat / 4 by omega,
      show ((a.toNat * 256 + b.toNat) * 256 + c.toNat) / 4096 % 64 = a.toNat % 4 * 16 + b.toNat / 16 by omega,
      show ((a.toNat * 256 + b.toNat) * 256 + c.toNat) / 64 % 64 = b.toNat % 16 * 4 + c.toNat / 64 by omega,
      show ((a.toNat * 256 + b.toNat) * 256 + c.toNat) % 64 = c.toNat % 64 by omega]

theorem readAll_symbols {l : List Nat} (h : ∀ n ∈ l, n < 64) (offset : Nat) :
    readAll (l.map symbol) offset = .ok l := by
  induction l generalizing offset with
  | nil => rfl
  | cons n l ih =>
    have hn := value?_symbol n (h n (List.mem_cons_self ..))
    rw [List.map_cons, readAll, read, hn, ih fun m hm => h m (List.mem_cons_of_mem _ hm)]
    rfl

theorem pad_not_mem {l : List Nat} (h : ∀ n ∈ l, n < 64) : pad ∉ l.map symbol := by
  intro hp
  obtain ⟨n, hn, hs⟩ := List.mem_map.1 hp
  exact symbol_ne_pad n (h n hn) hs

/-- The last group: at least two symbols or none, and any filler behind the symbols; a strict decoder wants
the group full. -/
theorem decodeLast_symbols (strength : Strength) {l : List Nat} {b : Bytes} (h : ∀ n ∈ l, n < 64) (k offset : Nat)
    (hl : 2 ≤ l.length ∨ l = [] ∧ k = 0) (hfull : strength = .strict → (l.length + k) % 4 = 0)
    (hb : lastGroup l = (b, 0)) :
    decodeLast strength (l.map symbol ++ List.replicate k pad) offset = .ok b := by
  have htake : (l.map symbol ++ List.replicate k pad).takeWhile (· != pad) = l.map symbol := by
    rw [List.takeWhile_append_of_pos (by simpa using fun n hn => symbol_ne_pad n (h n hn))]
    cases k <;> simp [List.replicate_succ]
  have hdrop : (l.map symbol ++ List.replicate k pad).dropWhile (· != pad) = List.replicate k pad := by
    rw [List.dropWhile_append_of_pos (by simpa using fun n hn => symbol_ne_pad n (h n hn))]
    cases k <;> simp [List.replicate_succ]
  rcases hl with hl | ⟨rfl, rfl⟩
  · have hl' : ¬ l.length < 2 := by omega
    have hstop : ¬ (strength = .strict ∧ (l.length + k) % 4 ≠ 0) := fun hs => hs.2 (hfull hs.1)
    simp only [decodeLast, htake, hdrop, readAll_symbols h, List.length_map, List.length_append,
      List.length_replicate, hstop]
    simp [hl', hb, bind, Except.bind, pure, Except.pure]
  · obtain rfl : b = [] := (congrArg Prod.fst hb).symm
    cases strength <;> rfl

/-- a byte put together from the parts into which it was cut -/
theorem ofNat_eq {n : Nat} (x : UInt8) (h : n = x.toNat) : UInt8.ofNat n = x := by
  rw [h, UInt8.ofNat_toNat]

theorem decodeGroups_symbols (strength : Strength) (b : Bytes) {k : Nat} (hk : k ≤ fillerSize b)
    (hfull : strength = .strict → k = fillerSize b) (offset : Nat) :
    decodeGroups strength ((sextets b).map symbol ++ List.replicate k pad) offset = .ok b := by
  have hlt := sextets_lt b
  fun_induction sextets b generalizing offset with
  | case1 =>
    obtain rfl : k = 0 := by simpa [fillerSize] using hk
    cases strength <;> rfl
  | case2 a =>
    have := a.toNat_lt
    have hgroup : lastGroup [a.toNat / 4, a.toNat % 4 * 16] = ([a], 0) := by
      simp only [lastGroup, Prod.mk.injEq, List.cons.injEq, and_true]
      exact ⟨ofNat_eq a (by omega), by omega⟩
    have hk : k ≤ 2 := hk
    have hfour : strength = .strict → (2 + k) % 4 = 0 := fun hs => by simp [hfull hs, fillerSize]
    have := decodeLast_symbols strength hlt k offset (by simp) hfour hgroup
    interval_cases k <;> exact this
  | case3 a b =>
    have := a.toNat_lt
    have := b.toNat_lt
    have hgroup : lastGroup [a.toNat / 4, a.toNat % 4 * 16 + b.toNat / 16, b.toNat % 16 * 4] = ([a, b], 0) := by
      simp only [lastGroup, Prod.mk.injEq, List.cons.injEq, and_true]
      exact ⟨⟨ofNat_eq a (by omega), ofNat_eq b (by omega)⟩, by omega⟩
    have hk : k ≤ 1 := hk
    have hfour : strength = .strict → (3 + k) % 4 = 0 := fun hs => by simp [hfull hs, fillerSize]
    have := decodeLast_symbols strength hlt k offset (by simp) hfour hgroup
    interval_cases k <;> exact this
  | case4 a b c r ih =>
    have := a.toNat_lt
    have := b.toNat_lt
    have := c.toNat_lt
    have hgroup : lastGroup [a.toNat / 4, a.toNat % 4 * 16 + b.toNat / 16, b.toNat % 16 * 4 + c.toNat / 64,
        c.toNat % 64] = ([a, b, c], 0) := by
      simp only [lastGroup, Prod.mk.injEq, List.cons.injEq, and_true]
      exact ⟨ofNat_eq a (by omega), ofNat_eq b (by omega), ofNat_eq c (by omega)⟩
    have hsize : fillerSize (a :: b :: c :: r) = fillerSize r := by
      simp only [fillerSize, List.length_cons]
      omega
    rw [hsize] at hk hfull
    have hrest := ih hk hfull (offset + 4) fun n hn => hlt n (by simp [hn])
    simp only [List.mem_cons, forall_eq_or_imp] at hlt
    obtain ⟨h1, h2, h3, h4, -⟩ := hlt
    cases htail : (sextets r).map symbol ++ List.replicate k pad with
    | nil =>
      rw [htail] at hrest
      have hnil : decodeGroups strength [] (offset + 4) = .ok [] := by cases strength <;> rfl
      obtain rfl : r = [] := (Except.ok.inj (hnil.symm.trans hrest)).symm
      obtain rfl : k = 0 := by simpa [fillerSize] using hk
      exact decodeLast_symbols strength (l := [_, _, _, _]) (by simp [h1, h2, h3, h4]) 0 offset (by simp)
        (fun _ => by simp) hgroup
    | cons e t =>
      rw [htail] at hrest
      rw [List.map_cons, List.map_cons, List.map_cons, List.map_cons, List.cons_append, List.cons_append,
        List.cons_append, List.cons_append, htail, decodeGroups]
      simp only [read, value?_symbol _ h1, value?_symbol _ h2, value?_symbol _ h3, value?_symbol _ h4, hrest,
        bind, Except.bind, hgroup]
      rfl

/-- `t` is the text of `b`, with all, some or none of its filler. -/
def Spells (t b : Bytes) : Prop := ∃ n, t ++ List.replicate n pad = encodeBytes b

theorem spells_encodeBytes (b : Bytes) : Spells (encodeBytes b) b := ⟨0, by simp⟩

theorem Spells.eq {t b : Bytes} (h : Spells t b) :
    ∃ k ≤ fillerSize b, t = (sextets b).map symbol ++ List.replicate k pad := by
  obtain ⟨n, hn⟩ := h
  rw [encodeBytes_eq] at hn
  have hpad := pad_not_mem (sextets_lt b)
  rcases List.append_eq_append_iff.1 hn with ⟨u, hu, hfill⟩ | ⟨u, hu, hfill⟩
  · -- what the symbols have beyond `t` would be filler
    have hnil : u = [] := by
      refine List.eq_nil_iff_forall_not_mem.2 fun x hx => hpad ?_
      have hmem : x ∈ List.replicate n pad := by rw [hfill]; exact List.mem_append_left _ hx
      rw [← (List.mem_replicate.1 hmem).2, hu]
      exact List.mem_append_right _ hx
    exact ⟨0, Nat.zero_le _, by simp [hu, hnil]⟩
  · have hu' : u = List.replicate u.length pad := by
      rw [List.eq_replicate_iff]
      refine ⟨rfl, ?_⟩
      intro x hx
      have hmem : x ∈ List.replicate (fillerSize b) pad := by rw [hfill]; exact List.mem_append_left _ hx
      exact (List.mem_replicate.1 hmem).2
    refine ⟨u.length, ?_, by rw [hu, ← hu']⟩
    have := congrArg List.length hfill
    simp only [List.length_append, List.length_replicate] at this
    omega

theorem length_sextets (b : Bytes) : (sextets b).length + fillerSize b = 4 * ((b.length + 2) / 3) := by
  fun_induction sextets b with
  | case1 | case2 | case3 => simp [fillerSize]
  | case4 a b c r ih =>
    simp only [fillerSize, List.length_cons] at ih ⊢
    omega

/-- No such text leaves a stray byte after whole groups. -/
theorem decodeBytes_symbols (strength : Strength) (b : Bytes) {k : Nat} (hk : k ≤ fillerSize b)
    (hfull : strength = .strict → k = fillerSize b) :
    decodeBytes strength ((sextets b).map symbol ++ List.replicate k pad) = .ok b := by
  have hlen : ((sextets b).map symbol ++ List.replicate k pad).length % 4 ≠ 1 := by
    have := length_sextets b
    simp only [fillerSize, List.length_append, List.length_map, List.length_replicate] at *
    omega
  unfold decodeBytes
  simp only [hlen, false_and, if_false]
  exact decodeGroups_symbols strength b hk hfull 0

/-- A text that spells something is read back, however much of its filler there is. -/
theorem decodeBytes_of_spells {t b : Bytes} (h : Spells t b) : decodeBytes .lenient t = .ok b := by
  obtain ⟨k, hk, rfl⟩ := h.eq
  exact decodeBytes_symbols .lenient b hk nofun

theorem decodeBytes_encodeBytes (strength : Strength) (b : Bytes) : decodeBytes strength (encodeBytes b) = .ok b := by
  rw [encodeBytes_eq]
  exact decodeBytes_symbols strength b le_rfl fun _ => rfl

theorem lt_of_mem_spelling {t b : Bytes} (h : Spells t b) : ∀ x ∈ t, x.toNat < 128 := by
  obtain ⟨k, -, rfl⟩ := h.eq
  intro x hx
  rcases List.mem_append.1 hx with hx | hx
  · obtain ⟨n, hn, rfl⟩ := List.mem_map.1 hx
    exact symbol_lt n (sextets_lt b n hn)
  · rw [(List.mem_replicate.1 hx).2]
    decide

theorem not_isBlank_symbol : ∀ n < 64, ¬ Text.isBlank (Char.ofNat (symbol n).toNat) := by decide

theorem not_isBlank_of_mem_spelling {t b : Bytes} (h : Spells t b) :
    ∀ x ∈ t, ¬ Text.isBlank (Char.ofNat x.toNat) := by
  obtain ⟨k, -, rfl⟩ := h.eq
  intro x hx
  rcases List.mem_append.1 hx with hx | hx
  · obtain ⟨n, hn, rfl⟩ := List.mem_map.1 hx
    exact not_isBlank_symbol n (sextets_lt b n hn)
  · rw [(List.mem_replicate.1 hx).2]
    decide

/-- `s` is the text of `b`, with or without its filler, between any white space. -/
def Written (s : String) (b : Bytes) : Prop :=
  ∃ l t r, (∀ c ∈ l, Text.isBlank c) ∧ (∀ c ∈ r, Text.isBlank c) ∧ Spells t b ∧
    s.toList = l ++ t.map (fun x => Char.ofNat x.toNat) ++ r

theorem written_encode (b : Bytes) : Written (encode b) b :=
  ⟨[], encodeBytes b, [], by simp, by simp, spells_encodeBytes b, by simp [encode]⟩

theorem trim_encode (b : Bytes) : Text.trim (encode b) = encode b := by
  have hsymbol : ∀ c ∈ (encodeBytes b).map fun x => Char.ofNat x.toNat, ¬ Text.isBlank c := by
    simpa using not_isBlank_of_mem_spelling (spells_encodeBytes b)
  have htrim := Text.trimChars_surrounded (l := []) (r := []) (by simp) hsymbol (by simp)
  rw [List.nil_append, List.append_nil] at htrim
  rw [Text.trim, encode, String.toList_ofList, htrim]

/-- No byte of a written text starts an escape. -/
theorem percent_not_mem_encode (b : Bytes) : (37 : UInt8) ∉ Text.toBytes (encode b) := by
  have hsymbol : ∀ n < 64, symbol n ≠ 37 := by decide
  rw [encode, Text.toBytes_ofList_map (lt_of_mem_spelling (spells_encodeBytes b)), encodeBytes_eq, List.mem_append]
  rintro (h | h)
  · obtain ⟨n, hn, hpercent⟩ := List.mem_map.1 h
    exact hsymbol n (sextets_lt b n hn) hpercent
  · exact absurd (List.mem_replicate.1 h).2 (by decide)

theorem decode_encode (strength : Strength) (b : Bytes) : decode strength (encode b) = .ok b := by
  rw [decode, encode, Text.toBytes_ofList_map (lt_of_mem_spelling (spells_encodeBytes b)), decodeBytes_encodeBytes]

theorem decode_trim_of_written {s : String} {b : Bytes} (h : Written s b) :
    decode .lenient (Text.trim s) = .ok b := by
  obtain ⟨l, t, r, hl, hr, ht, hs⟩ := h
  have htrim : Text.trim s = String.ofList (t.map fun x => Char.ofNat x.toNat) := by
    rw [Text.trim, hs, Text.trimChars_surrounded hl _ hr]
    simpa using not_isBlank_of_mem_spelling ht
  rw [decode, htrim, Text.toBytes_ofList_map (lt_of_mem_spelling ht), decodeBytes_of_spells ht]

end Base64

end ChatWire
