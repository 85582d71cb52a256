import ChatWire.Proofs.Text.Percent
import ChatWire.Url.Parser

/-! Where the query of a URL starts and ends. Nothing before it holds a question mark or a number sign, and the query
itself holds no number sign, however the URL was spelled. -/

namespace ChatWire.Url

/-- Whether a text has neither of the signs that start a query or a fragment. -/
def Unmarked (s : List Char) : Prop := ∀ c ∈ s, c ≠ '?' ∧ c ≠ '#'

instance (s : List Char) : Decidable (Unmarked s) := List.decidableBAll _ s

theorem Unmarked.nil : Unmarked [] := fun _ h => absurd h List.not_mem_nil

theorem Unmarked.append {s t : List Char} (hs : Unmarked s) (ht : Unmarked t) : Unmarked (s ++ t) :=
  fun c hc => (List.mem_append.1 hc).elim (hs c) (ht c)

theorem Unmarked.cons {c : Char} {s : List Char} (hc : c ≠ '?' ∧ c ≠ '#') (hs : Unmarked s) : Unmarked (c :: s) :=
  fun d hd => (List.mem_cons.1 hd).elim (fun h => h ▸ hc) (hs d)

theorem Unmarked.of_subset {s t : List Char} (hs : Unmarked s) (h : t ⊆ s) : Unmarked t := fun c hc => hs c (h hc)

theorem Unmarked.intercalate {separator : List Char} (hs : Unmarked separator) {l : List (List Char)}
    (hl : ∀ s ∈ l, Unmarked s) : Unmarked (separator.intercalate l) := by
  induction l with
  | nil => exact .nil
  | cons s l ih =>
    have hrest := ih fun t ht => hl t (List.mem_cons_of_mem _ ht)
    cases l with
    | nil =>
      rw [List.intercalate_singleton]
      exact hl s (List.mem_cons_self ..)
    | cons t l =>
      rw [List.intercalate_cons_cons]
      exact ((hl s (List.mem_cons_self ..)).append hs).append hrest

/-- Where both signs are refused, a text that passes has neither. -/
theorem unmarked_of_refused {p : Char → Bool} (hquery : p '?') (hfragment : p '#') {s : List Char} (h : ¬ s.any p) :
    Unmarked s := by
  intro c hc
  have hok : ¬ p c := fun hp => h (List.any_eq_true.2 ⟨c, hc, hp⟩)
  constructor
  · rintro rfl
    exact hok hquery
  · rintro rfl
    exact hok hfragment

/-! Escaped texts. -/

theorem unmarked_upperDigit : ∀ n < 16, Hex.upperDigit n ≠ '?' ∧ Hex.upperDigit n ≠ '#' := by decide

/-- Where both signs are escaped, neither is left. -/
theorem unmarked_escape {set : UInt8 → Bool} (hquery : set 63) (hfragment : set 35) (s : List Char) :
    Unmarked (escape set s).toList := by
  intro c hc
  rcases Percent.mem_encode hc with ⟨-, hset⟩ | rfl | ⟨n, hn, rfl⟩
  · constructor
    · rintro rfl
      exact absurd hset (by simpa using hquery)
    · rintro rfl
      exact absurd hset (by simpa using hfragment)
  · decide
  · exact unmarked_upperDigit n hn

/-- Escapes bring neither. -/
theorem Unmarked.encode {s : List Char} (h : Unmarked s) (set : UInt8 → Bool) :
    Unmarked (Percent.encode set (String.ofList s)).toList := by
  intro c hc
  rcases Percent.mem_encode hc with ⟨hmem, -⟩ | rfl | ⟨n, hn, rfl⟩
  · rw [String.toList_ofList] at hmem
    exact h c hmem
  · decide
  · exact unmarked_upperDigit n hn

/-! Numbers. -/

theorem unmarked_digitChar : ∀ n < 16, Nat.digitChar n ≠ '?' ∧ Nat.digitChar n ≠ '#' := by decide

theorem unmarked_toDigits {base : Nat} (h : 1 < base) (hbase : base ≤ 16) (n : Nat) : Unmarked (base.toDigits n) := by
  induction n using Nat.strongRecOn with
  | ind n ih =>
    rw [Nat.toDigits_eq_if h]
    split_ifs with hn
    · exact .cons (unmarked_digitChar n (by omega)) .nil
    · have hlt : n / base < n := Nat.div_lt_self (by omega) h
      have hmod : n % base < base := Nat.mod_lt n (by omega)
      exact (ih _ hlt).append (.cons (unmarked_digitChar _ (by omega)) .nil)

theorem unmarked_toString (n : Nat) : Unmarked (toString n).toList := by
  have htext : (toString n).toList = Nat.toDigits 10 n := Nat.toList_repr ..
  rw [htext]
  exact unmarked_toDigits (by decide) (by decide) n

/-! Hosts. -/

theorem unmarked_ipv4Text (n : Nat) : Unmarked (Host.ipv4Text n).toList := by
  rw [Host.ipv4Text, String.toList_intercalate]
  apply Unmarked.intercalate (by decide)
  intro s hs
  obtain ⟨t, ht, rfl⟩ := List.mem_map.1 hs
  obtain ⟨m, -, rfl⟩ := List.mem_map.1 ht
  exact unmarked_toString m

theorem unmarked_ipv6Chars (pieces : List Nat) : Unmarked (Host.ipv6Chars pieces) := by
  have hjoin (l : List Nat) : Unmarked ([':'].intercalate (l.map Host.hexPiece)) := by
    apply Unmarked.intercalate (by decide)
    intro s hs
    obtain ⟨m, -, rfl⟩ := List.mem_map.1 hs
    exact unmarked_toDigits (by decide) (by decide) m
  unfold Host.ipv6Chars
  simp only
  split_ifs
  · exact hjoin _
  · exact ((hjoin _).append (by decide)).append (hjoin _)

theorem unmarked_punycodeDigit : ∀ d < 36, Punycode.digitChar d ≠ '?' ∧ Punycode.digitChar d ≠ '#' := by decide

theorem threshold_le (k bias : Nat) : Punycode.threshold k bias ≤ 26 := by
  unfold Punycode.threshold
  split_ifs <;> omega

theorem unmarked_punycodeDigits (bias k q : Nat) : Unmarked (Punycode.digits bias k q) := by
  induction k, q using Punycode.digits.induct bias with
  | case1 k q t hlt =>
    have ht := threshold_le k bias
    have hq : q < Punycode.threshold k bias := hlt
    rw [Punycode.digits]
    simp only [hq, if_true]
    exact .cons (unmarked_punycodeDigit q (by omega)) .nil
  | case2 k q t hge ih =>
    have ht := threshold_le k bias
    have hq : ¬ q < Punycode.threshold k bias := hge
    have hmod : (q - Punycode.threshold k bias) % (36 - Punycode.threshold k bias) <
        36 - Punycode.threshold k bias := Nat.mod_lt _ (by omega)
    rw [Punycode.digits]
    simp only [hq, if_false]
    exact .cons (unmarked_punycodeDigit _ (by omega)) ih

/-- An encoder writes digits. -/
theorem unmarked_visit {plain m : Nat} {s : Punycode.Encoder} (h : Unmarked s.out) (c : Char) :
    Unmarked (s.visit plain m c).out := by
  unfold Punycode.Encoder.visit
  split_ifs
  · exact h
  · exact h.append (unmarked_punycodeDigits _ _ _)
  · exact h

theorem unmarked_rounds (label : List Char) (plain : Nat) {values : List Nat} {n : Nat} {s : Punycode.Encoder}
    (h : Unmarked s.out) : Unmarked (Punycode.rounds label plain values n s).out := by
  induction values generalizing n s with
  | nil => exact h
  | cons m r ih =>
    have hfold (l : List Char) (s : Punycode.Encoder) (hs : Unmarked s.out) :
        Unmarked (l.foldl (Punycode.Encoder.visit plain m) s).out := by
      induction l generalizing s with
      | nil => exact hs
      | cons c l ih => exact ih _ (unmarked_visit hs c)
    rw [Punycode.rounds]
    exact ih (hfold label { s with delta := s.delta + (m - n) * (s.handled + 1) } h)

theorem Unmarked.punycode {label : List Char} (h : Unmarked label) : Unmarked (Punycode.encode label) := by
  have hplain : Unmarked (label.filter fun c => c.toNat < 128) := h.of_subset fun _ hc => List.mem_of_mem_filter hc
  unfold Punycode.encode
  simp only
  split_ifs
  · exact unmarked_rounds label _ .nil
  · exact hplain.append (.cons (by decide) (unmarked_rounds label _ .nil))

theorem mem_of_mem_labels {s l : List Char} {c : Char} (hl : l ∈ Domain.labels s) (hc : c ∈ l) : c ∈ s := by
  induction s generalizing l with
  | nil =>
    rw [Domain.labels, List.mem_singleton] at hl
    exact hl ▸ hc
  | cons d s ih =>
    rw [Domain.labels] at hl
    split_ifs at hl
    · rcases List.mem_cons.1 hl with rfl | hl
      · cases hc
      · exact List.mem_cons_of_mem _ (ih hl hc)
    · split at hl
      · rw [List.mem_singleton] at hl
        subst hl
        rw [List.mem_singleton.1 hc]
        exact List.mem_cons_self ..
      · next p ps hps =>
        rcases List.mem_cons.1 hl with rfl | hl
        · rcases List.mem_cons.1 hc with rfl | hc
          · exact List.mem_cons_self ..
          · exact List.mem_cons_of_mem _ (ih (hps ▸ List.mem_cons_self ..) hc)
        · exact List.mem_cons_of_mem _ (ih (hps ▸ List.mem_cons_of_mem _ hl) hc)

theorem Unmarked.label {l m : List Char} (h : Unmarked l) (hm : Domain.label? l = some m) : Unmarked m := by
  unfold Domain.label? at hm
  split_ifs at hm
  · have hsame : m = l := by
      unfold Domain.encodedLabel? at hm
      split at hm
      · split at hm
        · split_ifs at hm
          exact (Option.some.inj hm).symm
        · cases hm
      · exact (Option.some.inj hm).symm
    exact hsame ▸ h
  · rw [← Option.some.inj hm]
    exact Unmarked.append (by decide) h.punycode

theorem mem_of_mapM {α β : Type} {f : α → Option β} {l : List α} {m : List β} (h : l.mapM f = some m) :
    ∀ b ∈ m, ∃ a ∈ l, f a = some b := by
  induction l generalizing m with
  | nil =>
    cases h
    simp
  | cons a l ih =>
    rw [List.mapM_cons] at h
    obtain ⟨b, hb, h⟩ := Option.bind_eq_some_iff.1 h
    obtain ⟨r, hr, h⟩ := Option.bind_eq_some_iff.1 h
    cases h
    intro x hx
    rcases List.mem_cons.1 hx with rfl | hx
    · exact ⟨a, List.mem_cons_self .., hb⟩
    · obtain ⟨y, hy, hfy⟩ := ih hr x hx
      exact ⟨y, List.mem_cons_of_mem _ hy, hfy⟩

/-- A name that is looked up is made of labels in which nothing is denied. -/
theorem unmarked_of_ofChars? {s name : List Char} (h : Domain.ofChars? s = some name) : Unmarked name := by
  unfold Domain.ofChars? at h
  simp only at h
  split_ifs at h with hdenied
  obtain ⟨ls, hls, h⟩ := Option.bind_eq_some_iff.1 h
  cases h
  have hmapped := unmarked_of_refused (by decide) (by decide) hdenied
  apply Unmarked.intercalate (by decide)
  intro m hm
  obtain ⟨l, hl, hlabel⟩ := mem_of_mapM hls m hm
  exact (hmapped.of_subset fun c hc => mem_of_mem_labels hl hc).label hlabel

theorem unmarked_of_bracketed? {s : List Char} {h : Host} (hs : Host.bracketed? s = some (.ok h)) :
    Unmarked h.render.toList := by
  unfold Host.bracketed? at hs
  split at hs
  · split at hs
    · split at hs
      · cases hs
        rw [Host.render, String.toList_ofList]
        exact .cons (by decide) ((unmarked_ipv6Chars _).append (by decide))
      · cases hs
    · cases hs
  · cases hs

theorem unmarked_of_parseOpaque {s : List Char} {h : Host} (hs : Host.parseOpaque s = .ok h) :
    Unmarked h.render.toList := by
  unfold Host.parseOpaque at hs
  split at hs
  · next r hr =>
    subst hs
    exact unmarked_of_bracketed? hr
  · split_ifs at hs with hforbidden hempty
    · cases hs
      exact .nil
    · cases hs
      exact (unmarked_of_refused (by decide) (by decide) hforbidden).encode _

theorem unmarked_of_parseHost {s : List Char} {h : Host} (hs : Host.parse s = .ok h) : Unmarked h.render.toList := by
  unfold Host.parse at hs
  split at hs
  · next r hr =>
    subst hs
    exact unmarked_of_bracketed? hr
  · split at hs
    · cases hs
    · cases hs
    · next name hname =>
      obtain ⟨t, -, hname⟩ := Option.bind_eq_some_iff.1 hname
      split at hs
      · split at hs
        · cases hs
          exact unmarked_ipv4Text _
        · cases hs
      · cases hs
        rw [Host.render, String.toList_ofList]
        exact unmarked_of_ofChars? hname

end ChatWire.Url
