import ChatWire.Proofs.Bytes.Base64
import ChatWire.Proofs.Outcome

/-! Base64 texts that can be read. They are the texts that the encoder writes; only for the lenient decoder
may the filler be missing. -/

namespace ChatWire

namespace Text

theorem toBytes_injective {s t : String} (h : toBytes s = toBytes t) : s = t := by
  have hs := ofBytes?_toBytes s
  rw [h, ofBytes?_toBytes] at hs
  exact (Option.some.inj hs).symm

/-- What is trimmed off is blank. -/
theorem exists_of_trimChars (s : List Char) :
    ∃ l r, (∀ c ∈ l, isBlank c) ∧ (∀ c ∈ r, isBlank c) ∧ s = l ++ trimChars s ++ r := by
  set u := (s.dropWhile isBlank).reverse with hu
  refine ⟨s.takeWhile isBlank, (u.takeWhile isBlank).reverse, fun c hc => List.mem_takeWhile_imp hc,
    fun c hc => List.mem_takeWhile_imp (List.mem_reverse.1 hc), ?_⟩
  calc s = s.takeWhile isBlank ++ u.reverse := by rw [hu, List.reverse_reverse, List.takeWhile_append_dropWhile]
    _ = s.takeWhile isBlank ++ (u.takeWhile isBlank ++ u.dropWhile isBlank).reverse := by
      rw [List.takeWhile_append_dropWhile]
    _ = s.takeWhile isBlank ++ trimChars s ++ (u.takeWhile isBlank).reverse := by
      rw [List.reverse_append, ← List.append_assoc, trimChars]

end Text

namespace Base64

/-- Only the symbol of a number is read as that number. -/
theorem symbol_of_value? {b : UInt8} {n : Nat} (h : value? b = some n) : n < 64 ∧ symbol n = b := by
  have htable : ∀ m < 256, ∀ n ∈ value? (UInt8.ofNat m), n < 64 ∧ symbol n = UInt8.ofNat m := by
    decide +kernel
  rw [← UInt8.ofNat_toNat (x := b)] at h ⊢
  exact htable b.toNat b.toNat_lt n h

theorem value?_of_read {b : UInt8} {offset n : Nat} (h : read b offset = .ok n) : value? b = some n := by
  unfold read at h
  split at h
  · rename_i m hm
    rw [hm, Except.ok.inj h]
  · cases h

theorem symbols_of_readAll {t : Bytes} {offset : Nat} {l : List Nat} (h : readAll t offset = .ok l) :
    (∀ n ∈ l, n < 64) ∧ t = l.map symbol := by
  induction t generalizing offset l with
  | nil =>
    obtain rfl : [] = l := Except.ok.inj h
    exact ⟨by simp, rfl⟩
  | cons b r ih =>
    obtain ⟨n, hn, h⟩ := bind_eq_ok_iff.1 h
    obtain ⟨m, hm, h⟩ := bind_eq_ok_iff.1 h
    obtain rfl : n :: m = l := Except.ok.inj h
    obtain ⟨hlt, hsymbol⟩ := symbol_of_value? (value?_of_read hn)
    obtain ⟨hall, hrest⟩ := ih hm
    exact ⟨List.forall_mem_cons.2 ⟨hlt, hall⟩, by rw [List.map_cons, hsymbol, ← hrest]⟩

/-- A last group without spare bits is cut into the numbers that it was put together from. -/
theorem sextets_lastGroup {l : List Nat} {b : Bytes} (hlt : ∀ n ∈ l, n < 64) (h : lastGroup l = (b, 0))
    (h2 : 2 ≤ l.length) (h4 : l.length ≤ 4) : sextets b = l ∧ l.length + fillerSize b = 4 := by
  match l, hlt, h, h2, h4 with
  | [w, x], hlt, h, _, _ =>
    simp only [List.forall_mem_cons] at hlt
    simp only [lastGroup, Prod.mk.injEq] at h
    obtain ⟨rfl, hspare⟩ := h
    refine ⟨?_, rfl⟩
    simp only [sextets, UInt8.toNat_ofNat', List.cons.injEq, and_true]
    omega
  | [w, x, y], hlt, h, _, _ =>
    simp only [List.forall_mem_cons] at hlt
    simp only [lastGroup, Prod.mk.injEq] at h
    obtain ⟨rfl, hspare⟩ := h
    refine ⟨?_, rfl⟩
    simp only [sextets, UInt8.toNat_ofNat', List.cons.injEq, and_true]
    omega
  | [w, x, y, z], hlt, h, _, _ =>
    simp only [List.forall_mem_cons] at hlt
    simp only [lastGroup, Prod.mk.injEq] at h
    obtain ⟨rfl, -⟩ := h
    refine ⟨?_, by simp only [fillerSize, List.length_cons, List.length_nil]⟩
    simp only [sextets, UInt8.toNat_ofNat', List.cons.injEq, and_true]
    omega

/-- The last group of a text that is read has at least two symbols or none, and then filler. -/
theorem of_decodeLast {strength : Strength} {t b : Bytes} {offset : Nat} (h : decodeLast strength t offset = .ok b) :
    ∃ l k, (∀ n ∈ l, n < 64) ∧ t = l.map symbol ++ List.replicate k pad ∧ (t = [] ∨ 2 ≤ l.length) ∧
      (strength = .strict → t.length % 4 = 0) ∧ lastGroup l = (b, 0) := by
  have hcut : t = t.takeWhile (· != pad) ++ t.dropWhile (· != pad) := List.takeWhile_append_dropWhile.symm
  simp only [decodeLast] at h
  generalize t.takeWhile (· != pad) = symbols at h hcut
  generalize t.dropWhile (· != pad) = filler at h hcut
  obtain ⟨l, hread, h⟩ := bind_eq_ok_iff.1 h
  obtain ⟨hlt, hl⟩ := symbols_of_readAll hread
  simp only [bind, Except.bind, throw, throwThe, MonadExceptOf.throw] at h
  split_ifs at h with hfiller hshort hfull hspare
  simp only [not_and, not_or, Bool.not_eq_true, List.isEmpty_eq_false_iff, not_lt, List.any_eq_false, bne_iff_ne,
    not_not] at hfiller hshort hfull hspare
  have hpad : filler = List.replicate filler.length pad := by
    rcases eq_or_ne filler [] with rfl | hne
    · rfl
    · exact List.eq_replicate_iff.2 ⟨rfl, (hfiller hne).2⟩
  have hlen : t = [] ∨ 2 ≤ l.length := by
    rcases eq_or_ne t [] with hnil | hne
    · exact .inl hnil
    · rw [hl, List.length_map] at hshort
      exact .inr (hshort hne)
  exact ⟨l, filler.length, hlt, by rw [← hl, ← hpad, hcut], hlen, hfull, Prod.ext (Except.ok.inj h) hspare⟩

/-- A text is the text of `b`, with filler as far as a decoder wants it. -/
def Fills (strength : Strength) (t b : Bytes) : Prop :=
  ∃ k ≤ fillerSize b, (strength = .strict → k = fillerSize b) ∧ t = (sextets b).map symbol ++ List.replicate k pad

theorem fills_of_decodeLast {strength : Strength} {t b : Bytes} {offset : Nat} (hlen : t.length ≤ 4)
    (h : decodeLast strength t offset = .ok b) : Fills strength t b := by
  obtain ⟨l, k, hlt, ht, hmin, hfull, hgroup⟩ := of_decodeLast h
  have hsize : t.length = l.length + k := by rw [ht, List.length_append, List.length_map, List.length_replicate]
  rcases hmin with hnil | hmin
  · have hl : l = [] := by
      apply List.eq_nil_of_length_eq_zero
      rw [hnil, List.length_nil] at hsize
      omega
    rw [hl] at hgroup
    obtain rfl : b = [] := (congrArg Prod.fst hgroup).symm
    exact ⟨0, le_rfl, fun _ => rfl, hnil⟩
  · obtain ⟨hl, hfour⟩ := sextets_lastGroup hlt hgroup hmin (by omega)
    refine ⟨k, by omega, fun hs => ?_, by rw [hl, ht]⟩
    have hwhole := hfull hs
    omega

theorem sextets_append {l : List Nat} (hlt : ∀ n ∈ l, n < 64) (hl : l.length = 4) (b : Bytes) :
    sextets ((lastGroup l).1 ++ b) = l ++ sextets b ∧ fillerSize ((lastGroup l).1 ++ b) = fillerSize b := by
  match l, hlt, hl with
  | [w, x, y, z], hlt, _ =>
    have hsextets := (sextets_lastGroup hlt rfl (by simp) le_rfl).1
    simp only [sextets, List.cons.injEq] at hsextets
    simp only [lastGroup, List.cons_append, List.nil_append, sextets, hsextets, fillerSize, List.length_cons,
      true_and]
    omega

/-- A group that is not the last one is read as one that is. -/
theorem decodeGroups_cons (strength : Strength) (v w x y z : UInt8) (r : Bytes) (offset : Nat) :
    decodeGroups strength (v :: w :: x :: y :: z :: r) offset = (do
      let l ← readAll [v, w, x, y] offset
      let rest ← decodeGroups strength (z :: r) (offset + 4)
      pure ((lastGroup l).1 ++ rest)) := by
  simp only [decodeGroups, readAll, bind_assoc, pure_bind]
  rfl

theorem fills_of_decodeGroups {strength : Strength} {t b : Bytes} {offset : Nat}
    (h : decodeGroups strength t offset = .ok b) : Fills strength t b := by
  fun_induction decodeGroups strength t offset generalizing b with
  | case1 v w x y z r offset ih =>
    rw [← decodeGroups, decodeGroups_cons] at h
    obtain ⟨l, hl, h⟩ := bind_eq_ok_iff.1 h
    obtain ⟨rest, hrest, h⟩ := bind_eq_ok_iff.1 h
    obtain rfl : (lastGroup l).1 ++ rest = b := Except.ok.inj h
    obtain ⟨hlt, hl⟩ := symbols_of_readAll hl
    have hfour : l.length = 4 := by
      rw [← List.length_map, ← hl]
      rfl
    obtain ⟨hsextets, hfiller⟩ := sextets_append hlt hfour rest
    obtain ⟨k, hk, hfull, ht⟩ := ih hrest
    refine ⟨k, by rwa [hfiller], by rwa [hfiller], ?_⟩
    rw [hsextets, List.map_append, ← hl, List.append_assoc, ← ht]
    rfl
  | case2 t offset hshort =>
    refine fills_of_decodeLast ?_ h
    rcases t with _ | ⟨v, _ | ⟨w, _ | ⟨x, _ | ⟨y, _ | ⟨z, r⟩⟩⟩⟩⟩
    case cons.cons.cons.cons.cons => exact (hshort v w x y z r rfl).elim
    all_goals simp

theorem decodeBytes_eq_ok_iff {strength : Strength} {t b : Bytes} :
    decodeBytes strength t = .ok b ↔ Fills strength t b := by
  constructor
  · intro h
    simp only [decodeBytes] at h
    split_ifs at h
    exact fills_of_decodeGroups h
  · rintro ⟨k, hk, hfull, rfl⟩
    exact decodeBytes_symbols strength b hk hfull

theorem fills_strict_iff {t b : Bytes} : Fills .strict t b ↔ t = encodeBytes b := by
  rw [encodeBytes_eq]
  constructor
  · rintro ⟨k, -, hfull, ht⟩
    rw [ht, hfull rfl]
  · intro ht
    exact ⟨fillerSize b, le_rfl, fun _ => rfl, ht⟩

theorem fills_lenient_iff {t b : Bytes} : Fills .lenient t b ↔ Spells t b := by
  constructor
  · rintro ⟨k, hk, -, rfl⟩
    refine ⟨fillerSize b - k, ?_⟩
    rw [encodeBytes_eq, List.append_assoc, ← List.replicate_add, Nat.add_sub_cancel' hk]
  · intro h
    obtain ⟨k, hk, ht⟩ := h.eq
    exact ⟨k, hk, nofun, ht⟩

/-- Strict base64 is that of the encoder. -/
theorem decode_strict_iff {s : String} {b : Bytes} : decode .strict s = .ok b ↔ s = encode b := by
  constructor
  · intro h
    rw [decode, decodeBytes_eq_ok_iff, fills_strict_iff] at h
    apply Text.toBytes_injective
    rw [h, encode, Text.toBytes_ofList_map (lt_of_mem_spelling (spells_encodeBytes b))]
  · rintro rfl
    exact decode_encode .strict b

/-- Lenient base64 with blanks around it is what counts as written. -/
theorem decode_trim_iff {s : String} {b : Bytes} : decode .lenient (Text.trim s) = .ok b ↔ Written s b := by
  refine ⟨fun h => ?_, decode_trim_of_written⟩
  rw [decode, decodeBytes_eq_ok_iff, fills_lenient_iff] at h
  obtain ⟨l, r, hl, hr, hs⟩ := Text.exists_of_trimChars s.toList
  have htrim : Text.trim s = String.ofList ((Text.toBytes (Text.trim s)).map fun x => Char.ofNat x.toNat) :=
    Text.toBytes_injective (Text.toBytes_ofList_map (lt_of_mem_spelling h)).symm
  refine ⟨l, Text.toBytes (Text.trim s), r, hl, hr, h, ?_⟩
  rw [← String.toList_ofList (l := List.map _ _), ← htrim, Text.trim, String.toList_ofList, ← hs]

end Base64

end ChatWire
