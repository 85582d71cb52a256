import ChatWire.Proofs.Url.Query

/-! URLs read again from their own text. Wherever its path and its host come out, a text that is read again has the
query that it was given: what stands behind the first question mark, up to a number sign. -/

namespace ChatWire.Url

/-! The query of a text. -/

/-- the characters behind the first question mark, up to a number sign -/
def queryChars (s : List Char) : List Char := ((s.takeWhile (· != '#')).dropWhile (· != '?')).drop 1

theorem queryText_eq (text : String) : queryText text = String.ofList (queryChars text.toList) := rfl

theorem queryChars_append {front : List Char} (h : Unmarked front) (s : List Char) :
    queryChars (front ++ s) = queryChars s := by
  have hhash : ∀ c ∈ front, c != '#' := fun c hc => bne_iff_ne.2 (h c hc).2
  have hmark : ∀ c ∈ front, c != '?' := fun c hc => bne_iff_ne.2 (h c hc).1
  rw [queryChars, List.takeWhile_append_of_pos hhash, List.dropWhile_append_of_pos hmark, queryChars]

theorem queryChars_mark (s : List Char) : queryChars ('?' :: s) = s.takeWhile (· != '#') := by
  simp [queryChars]

theorem queryChars_hash (s : List Char) : queryChars ('#' :: s) = [] := by
  simp [queryChars]

/-- A text up to where `p` fails first, and from there on. -/
theorem exists_cut (p : Char → Bool) (s : List Char) :
    s = s.takeWhile p ++ s.drop (s.takeWhile p).length ∧
      ∀ c r, s.drop (s.takeWhile p).length = c :: r → p c = false := by
  refine ⟨(List.prefix_iff_eq_append.1 (List.takeWhile_prefix p)).symm, ?_⟩
  induction s with
  | nil => exact fun c r h => nomatch h
  | cons d s ih =>
    intro c r h
    by_cases hd : p d
    · rw [List.takeWhile_cons_of_pos hd] at h
      exact ih c r h
    · rw [List.takeWhile_cons_of_neg hd] at h
      cases h
      exact eq_false_of_ne_true hd

/-- What comes behind a path is taken for the query and the fragment. -/
theorem query_splitTail (special : Bool) (s : List Char) :
    (splitTail special s).2.1.getD "" = escape (escapedInQuery special) (queryChars s) := by
  obtain ⟨hcut, hstop⟩ := exists_cut (fun c => c != '?' && c != '#') s
  have hpath : Unmarked (s.takeWhile fun c => c != '?' && c != '#') := by
    intro c hc
    simpa using List.all_eq_true.1 List.all_takeWhile c hc
  have hquery : queryChars s = queryChars (s.drop (s.takeWhile fun c => c != '?' && c != '#').length) := by
    conv_lhs => rw [hcut]
    exact queryChars_append hpath _
  rw [hquery, splitTail]
  simp only
  generalize s.drop (s.takeWhile fun c => c != '?' && c != '#').length = rest at hstop ⊢
  cases rest with
  | nil => rfl
  | cons c r =>
    have hc : c = '?' ∨ c = '#' :=
      (Bool.and_eq_false_iff.1 (hstop c r rfl)).imp bne_eq_false_iff_eq.1 bne_eq_false_iff_eq.1
    rcases hc with rfl | rfl
    · rw [queryChars_mark]
      rfl
    · rw [queryChars_hash]
      rfl

/-! The end of a URL. -/

/-- The URL has the query and the fragment that stand in `s` behind a part without the signs of either. -/
def Trails (u : Url) (s : List Char) : Prop :=
  ∃ front rest, s = front ++ rest ∧ Unmarked front ∧ (splitTail (isSpecial u.scheme) rest).2 = (u.query, u.fragment)

theorem Trails.append {u : Url} {s front : List Char} (h : u.Trails s) (hfront : Unmarked front) :
    u.Trails (front ++ s) := by
  obtain ⟨more, rest, rfl, hmore, htail⟩ := h
  exact ⟨front ++ more, rest, (List.append_assoc ..).symm, hfront.append hmore, htail⟩

/-- What is passed over up to the end of a site has neither sign. -/
theorem Trails.of_drop {u : Url} {s : List Char} {p : Char → Bool} (hp : ∀ c, p c → c ≠ '?' ∧ c ≠ '#')
    (h : u.Trails (s.drop (s.takeWhile p).length)) : u.Trails s := by
  rw [(exists_cut p s).1]
  exact h.append fun c hc => hp c (List.all_eq_true.1 List.all_takeWhile c hc)

theorem unmarked_of_inSite {special : Bool} (c : Char) (h : !endsSite special c) : c ≠ '?' ∧ c ≠ '#' := by
  constructor <;> rintro rfl <;> simp [endsSite] at h

theorem unmarked_of_isSlash {special : Bool} (c : Char) (h : isSlash special c) : c ≠ '?' ∧ c ≠ '#' := by
  constructor <;> rintro rfl <;> cases special <;> exact absurd h (by decide)

theorem unmarked_of_isSchemeChar (c : Char) (h : isSchemeChar c) : c ≠ '?' ∧ c ≠ '#' := by
  constructor <;> rintro rfl <;> exact absurd h (by decide)

theorem trails_of_parseWithSite {scheme : String} {s : List Char} {u : Url} (h : parseWithSite scheme s = .ok u) :
    u.scheme = scheme ∧ u.Trails s := by
  unfold parseWithSite at h
  simp only [bind, Except.bind, pure, Except.pure, throw, throwThe, MonadExceptOf.throw] at h
  split at h
  · cases h
  split at h
  · cases h
  cases h
  exact ⟨rfl, .of_drop unmarked_of_inSite ⟨[], _, rfl, .nil, rfl⟩⟩

theorem trails_of_parseFile {s : List Char} {u : Url} (h : parseFile s = .ok u) : u.scheme = "file" ∧ u.Trails s := by
  have hspecial : isSpecial "file" = true := by decide
  have hwhole (s : List Char) (host : Host) (path : UrlPath) :
      Trails ⟨"file", some ⟨"", "", host, none⟩, path, (splitTail true s).2.1, (splitTail true s).2.2⟩ s :=
    ⟨[], s, rfl, .nil, by rw [hspecial]⟩
  unfold parseFile at h
  simp only [bind, Except.bind, pure, Except.pure] at h
  split at h
  · next a b r =>
    have hfront (hslashes : isSlash true a ∧ isSlash true b) : Unmarked [a, b] :=
      .cons (unmarked_of_isSlash a hslashes.1) (.cons (unmarked_of_isSlash b hslashes.2) .nil)
    split_ifs at h with hslashes hdrive
    · cases h
      exact ⟨rfl, (hwhole ..).append (hfront hslashes)⟩
    · split at h
      · cases h
      cases h
      exact ⟨rfl, (Trails.of_drop unmarked_of_inSite (hwhole ..)).append (hfront hslashes)⟩
    · cases h
      exact ⟨rfl, hwhole ..⟩
  · cases h
    exact ⟨rfl, hwhole ..⟩

theorem trails_of_parsePlain {scheme : String} (hscheme : isSpecial scheme = false) {s : List Char} {u : Url}
    (h : parsePlain scheme s = .ok u) : u.scheme = scheme ∧ u.Trails s := by
  unfold parsePlain at h
  split at h
  · next r =>
    obtain ⟨rfl, htrails⟩ := trails_of_parseWithSite h
    exact ⟨rfl, htrails.append (by decide : Unmarked ['/', '/'])⟩
  · cases h
    exact ⟨rfl, [], s, rfl, .nil, by rw [hscheme]; rfl⟩

theorem exists_of_scheme? {s rest : List Char} {scheme : String} (h : scheme? s = some (scheme, rest)) :
    ∃ name, s = name ++ ':' :: rest ∧ (∀ c ∈ name, isSchemeChar c) ∧ (∃ c r, name = c :: r ∧ isAlpha c) ∧
      scheme = String.ofList (name.map Char.toLower) := by
  unfold scheme? at h
  simp only at h
  split at h
  · next c r rest' hname hrest =>
    split_ifs at h with halpha
    cases h
    refine ⟨_, ?_, fun d hd => List.all_eq_true.1 List.all_takeWhile d hd, ⟨c, r, hname, halpha⟩, rfl⟩
    rw [← hrest]
    exact (exists_cut _ s).1
  · cases h

theorem trails_of_parse {text : String} {u : Url} (h : parse text = .ok u) :
    (∃ rest, scheme? (clean text) = some (u.scheme, rest)) ∧ u.Trails (clean text) := by
  unfold parse at h
  split at h
  · cases h
  next scheme rest hscheme =>
  have hfront : u.scheme = scheme ∧ u.Trails rest →
      (∃ rest, scheme? (clean text) = some (u.scheme, rest)) ∧ u.Trails (clean text) := by
    rintro ⟨rfl, htrails⟩
    refine ⟨⟨rest, hscheme⟩, ?_⟩
    obtain ⟨name, hclean, hname, -⟩ := exists_of_scheme? hscheme
    rw [hclean]
    exact (htrails.append (by decide : Unmarked [':'])).append fun c hc => unmarked_of_isSchemeChar c (hname c hc)
  apply hfront
  split_ifs at h with hfile hspecial
  · subst hfile
    exact trails_of_parseFile h
  · obtain ⟨hs, htrails⟩ := trails_of_parseWithSite h
    refine ⟨hs, ?_⟩
    have hcut : rest.takeWhile (isSlash true) ++ rest.dropWhile (isSlash true) = rest :=
      List.takeWhile_append_dropWhile
    rw [← hcut]
    exact htrails.append fun c hc => unmarked_of_isSlash c (List.all_eq_true.1 List.all_takeWhile c hc)
  · exact trails_of_parsePlain (eq_false_of_ne_true hspecial) h

/-! Cleaning. What it drops stands at the ends, or is a tab or a line break. -/

theorem queryChars_cons (c : Char) (s : List Char) :
    queryChars (c :: s) =
      if c = '#' then [] else if c = '?' then s.takeWhile (· != '#') else queryChars s := by
  split_ifs with hhash hmark
  · rw [hhash, queryChars_hash]
  · rw [hmark, queryChars_mark]
  · exact queryChars_append (.cons ⟨hmark, hhash⟩ .nil : Unmarked [c]) s

theorem queryChars_filter {p : Char → Bool} (hmark : p '?') (hhash : p '#') (s : List Char) :
    queryChars (s.filter p) = (queryChars s).filter p := by
  have htake (s : List Char) : (s.filter p).takeWhile (· != '#') = (s.takeWhile (· != '#')).filter p := by
    rw [List.takeWhile_filter]
    congr 2
    funext c
    by_cases hc : c = '#'
    · simp [hc, hhash]
    · simp [hc]
  induction s with
  | nil => rfl
  | cons c s ih =>
    by_cases hc : p c
    · rw [List.filter_cons_of_pos hc, queryChars_cons, queryChars_cons, htake, ih]
      split_ifs <;> rfl
    · have hne : c ≠ '#' ∧ c ≠ '?' := by
        constructor <;> rintro rfl
        · exact hc hhash
        · exact hc hmark
      rw [List.filter_cons_of_neg hc, queryChars_cons, if_neg hne.1, if_neg hne.2, ih]

/-- What is put behind a text without the signs stands in the query at most. -/
theorem exists_queryChars_append (s : List Char) {b : List Char} (h : Unmarked b) :
    ∃ x ⊆ b, queryChars (s ++ b) = queryChars s ++ x := by
  induction s with
  | nil =>
    refine ⟨[], List.nil_subset _, ?_⟩
    rw [List.nil_append, ← List.append_nil b, queryChars_append h]
    rfl
  | cons c s ih =>
    rw [List.cons_append, queryChars_cons, queryChars_cons]
    split_ifs
    · exact ⟨[], List.nil_subset _, rfl⟩
    · rw [List.takeWhile_append]
      split_ifs with hall
      · refine ⟨b.takeWhile (· != '#'), List.takeWhile_subset _, ?_⟩
        rw [(List.takeWhile_prefix _).eq_of_length hall]
      · exact ⟨[], List.nil_subset _, (List.append_nil _).symm⟩
    · exact ih

theorem exists_clean (text : String) :
    ∃ a m b, text.toList = a ++ (m ++ b) ∧ (∀ c ∈ a, c.toNat ≤ 32) ∧ (∀ c ∈ b, c.toNat ≤ 32) ∧
      clean text = m.filter fun c => c != '\t' && c != '\n' && c != '\x0d' := by
  let isEdge (c : Char) : Bool := c.toNat ≤ 32
  let s := text.toList.dropWhile isEdge
  refine ⟨text.toList.takeWhile isEdge, (s.reverse.dropWhile isEdge).reverse, (s.reverse.takeWhile isEdge).reverse,
    ?_, ?_, ?_, rfl⟩
  · rw [← List.reverse_append, List.takeWhile_append_dropWhile, List.reverse_reverse, List.takeWhile_append_dropWhile]
  · exact fun c hc => of_decide_eq_true (List.all_eq_true.1 List.all_takeWhile c hc)
  · exact fun c hc => of_decide_eq_true (List.all_eq_true.1 List.all_takeWhile c (List.mem_reverse.1 hc))

theorem unmarked_of_le {s : List Char} (h : ∀ c ∈ s, c.toNat ≤ 32) : Unmarked s := by
  intro c hc
  constructor <;> rintro rfl <;> exact absurd (h _ hc) (by decide)

theorem filter_break {s : List Char} (h : ∀ c ∈ s, 32 < c.toNat) :
    s.filter (fun c => c != '\t' && c != '\n' && c != '\x0d') = s := by
  rw [List.filter_eq_self]
  intro c hc
  have hlt := h c hc
  simp only [Bool.and_eq_true, bne_iff_ne]
  refine ⟨⟨?_, ?_⟩, ?_⟩ <;> rintro rfl <;> exact absurd hlt (by decide)

/-- A query without blanks and controls is not touched. -/
theorem queryChars_clean {text : String} (h : ∀ c ∈ queryChars text.toList, 32 < c.toNat) :
    queryChars (clean text) = queryChars text.toList := by
  obtain ⟨a, m, b, htext, ha, hb, hclean⟩ := exists_clean text
  obtain ⟨x, hx, hquery⟩ := exists_queryChars_append m (unmarked_of_le hb)
  have hwhole : queryChars text.toList = queryChars m ++ x := by
    rw [htext, queryChars_append (unmarked_of_le ha), hquery]
  have hnone : x = [] := by
    rw [List.eq_nil_iff_forall_not_mem]
    intro c hc
    have hlt := h c (hwhole ▸ List.mem_append_right _ hc)
    have hle := hb c (hx hc)
    omega
  rw [hclean, queryChars_filter (by decide) (by decide), hwhole, hnone, List.append_nil]
  exact filter_break fun c hc => h c (hwhole ▸ List.mem_append_left _ hc)

/-- what cleaning leaves of the end of a text -/
def shear (s : List Char) : List Char :=
  (s.reverse.dropWhile fun c => c.toNat ≤ 32).reverse.filter fun c => c != '\t' && c != '\n' && c != '\x0d'

theorem clean_eq (text : String) : clean text = shear (text.toList.dropWhile fun c => c.toNat ≤ 32) := rfl

/-- Nor is what comes before the end, as long as it is not blank. -/
theorem shear_append {front : List Char} (h : ∀ c ∈ front, 32 < c.toNat) (rest : List Char) :
    shear (front ++ rest) = front ++ shear rest := by
  have hfront : (front.reverse.dropWhile fun c => c.toNat ≤ 32) = front.reverse := by
    cases hlast : front.reverse with
    | nil => rfl
    | cons c r =>
      have hc : c ∈ front := List.mem_reverse.1 (hlast ▸ List.mem_cons_self ..)
      exact List.dropWhile_cons_of_neg (by simpa using h c hc)
  have hend : ((front ++ rest).reverse.dropWhile fun c => c.toNat ≤ 32).reverse =
      front ++ (rest.reverse.dropWhile fun c => c.toNat ≤ 32).reverse := by
    rw [List.reverse_append, List.dropWhile_append, hfront]
    split_ifs with hempty
    · rw [List.isEmpty_iff.1 hempty, List.reverse_nil, List.append_nil, List.reverse_reverse]
    · rw [List.reverse_append, List.reverse_reverse]
  rw [shear, hend, List.filter_append, filter_break h, shear]

theorem clean_append {text : String} {front rest : List Char} (htext : text.toList = front ++ rest)
    (hne : front ≠ []) (h : ∀ c ∈ front, 32 < c.toNat) : clean text = front ++ shear rest := by
  have hstart : ((front ++ rest).dropWhile fun c => c.toNat ≤ 32) = front ++ rest := by
    obtain ⟨c, front, rfl⟩ := List.exists_cons_of_ne_nil hne
    exact List.dropWhile_cons_of_neg (by simpa using h c (List.mem_cons_self ..))
  rw [clean_eq, htext, hstart, shear_append h]

/-! The scheme. -/

/-- A scheme as it is written when it has been read: it begins with a letter and has no capitals. -/
structure IsScheme (s : List Char) : Prop where
  head : ∃ c r, s = c :: r ∧ isAlpha c
  chars : ∀ c ∈ s, isSchemeChar c ∧ c.toLower = c

theorem toLower_cases {c : Char} (h : isSchemeChar c) :
    (isAlpha c → isAlpha c.toLower) ∧ isSchemeChar c.toLower ∧ c.toLower.toLower = c.toLower ∧ 32 < c.toNat := by
  have hall : ∀ n < 128, isSchemeChar (Char.ofNat n) → (isAlpha (Char.ofNat n) → isAlpha (Char.ofNat n).toLower) ∧
      isSchemeChar (Char.ofNat n).toLower ∧ (Char.ofNat n).toLower.toLower = (Char.ofNat n).toLower ∧
      32 < (Char.ofNat n).toNat := by decide
  have hc := hall c.toNat (lt_of_isSchemeChar h)
  rw [Char.ofNat_toNat] at hc
  exact hc h

/-- It has no blanks. -/
theorem IsScheme.lt {s : List Char} (h : IsScheme s) : ∀ c ∈ s, 32 < c.toNat :=
  fun c hc => (toLower_cases (h.chars c hc).1).2.2.2

theorem isScheme_of_scheme? {s rest : List Char} {scheme : String} (h : scheme? s = some (scheme, rest)) :
    IsScheme scheme.toList := by
  obtain ⟨name, -, hname, ⟨c, r, rfl, halpha⟩, rfl⟩ := exists_of_scheme? h
  rw [String.toList_ofList]
  refine ⟨⟨_, _, rfl, (toLower_cases (hname c (List.mem_cons_self ..))).1 halpha⟩, fun d hd => ?_⟩
  obtain ⟨e, he, rfl⟩ := List.mem_map.1 hd
  have hlower := toLower_cases (hname e he)
  exact ⟨hlower.2.1, hlower.2.2.1⟩

theorem scheme?_of_isScheme {scheme : String} (h : IsScheme scheme.toList) (rest : List Char) :
    scheme? (scheme.toList ++ ':' :: rest) = some (scheme, rest) := by
  have htake : (scheme.toList ++ ':' :: rest).takeWhile isSchemeChar = scheme.toList := by
    rw [List.takeWhile_append_of_pos fun c hc => (h.chars c hc).1, List.takeWhile_cons_of_neg (by decide),
      List.append_nil]
  have hdrop : (scheme.toList ++ ':' :: rest).drop scheme.toList.length = ':' :: rest := List.drop_left
  have hlower : scheme.toList.map Char.toLower = scheme.toList :=
    (List.map_congr_left fun c hc => (h.chars c hc).2).trans (List.map_id _)
  obtain ⟨c, r, hcons, halpha⟩ := h.head
  rw [scheme?]
  simp only [htake, hdrop, hlower]
  simp only [hcons, halpha, if_true]
  rw [← hcons, String.ofList_toList]

/-! URLs read again. -/

/-- The query of a URL is the escaped form of what stands in its text. -/
theorem query_of_parse {text : String} {u : Url} (h : parse text = .ok u) :
    u.query.getD "" = escape (escapedInQuery (isSpecial u.scheme)) (queryChars (clean text)) := by
  obtain ⟨front, rest, hclean, hfront, htail⟩ := (trails_of_parse h).2
  rw [hclean, queryChars_append hfront, ← query_splitTail, htail]

/-- A URL as it is when it has been read. -/
structure Proper (u : Url) : Prop where
  tidy : u.Tidy
  scheme : IsScheme u.scheme.toList
  query : IsNeat (isSpecial u.scheme) (u.query.getD "").toList

theorem proper_of_parse {text : String} {u : Url} (h : parse text = .ok u) : u.Proper := by
  obtain ⟨⟨rest, hscheme⟩, -⟩ := trails_of_parse h
  refine ⟨tidy_of_parse h, isScheme_of_scheme? hscheme, ?_⟩
  rw [query_of_parse h]
  exact isNeat_escape _ _

theorem Proper.append {u : Url} (h : u.Proper) (pairs : List (String × String)) : (u.append pairs).Proper := by
  by_cases hempty : pairs = []
  · subst hempty
    exact h
  refine ⟨h.tidy.append pairs, ?_, ?_⟩
  · rw [append_eq u hempty]
    exact h.scheme
  · rw [append_eq u hempty]
    simp only [Option.getD_some]
    split
    · exact isNeat_encodePairs _ pairs
    · exact isNeat_encodePairs _ pairs
    · next q _ hq =>
      have hquery := h.query
      rw [hq, Option.getD_some] at hquery
      rw [String.toList_append, String.toList_append]
      exact (hquery.append (isNeat_ampersand _)).append (isNeat_encodePairs _ pairs)

theorem Proper.scheme_of_parse {u v : Url} (h : u.Proper) (hv : parse u.render = .ok v) : v.scheme = u.scheme := by
  obtain ⟨⟨rest, hscheme⟩, -⟩ := trails_of_parse hv
  have htext : ∃ rest, u.render.toList = (u.scheme.toList ++ [':']) ++ rest := by
    rw [render]
    simp only [String.toList_append, List.append_assoc]
    exact ⟨_, rfl⟩
  have hvisible : ∀ c ∈ u.scheme.toList ++ [':'], 32 < c.toNat := by
    intro c hc
    rcases List.mem_append.1 hc with hc | hc
    · exact h.scheme.lt c hc
    · rw [List.mem_singleton.1 hc]
      decide
  obtain ⟨_, htext⟩ := htext
  rw [clean_append htext (by simp) hvisible, List.append_assoc, List.singleton_append, scheme?_of_isScheme h.scheme] at hscheme
  exact (congrArg Prod.fst (Option.some.inj hscheme)).symm

/-- The query is the same when the text of a URL is read again. -/
theorem Proper.query_of_parse {u v : Url} (h : u.Proper) (hv : parse u.render = .ok v) :
    v.query.getD "" = u.query.getD "" := by
  have hquery : queryChars u.render.toList = (u.query.getD "").toList := by
    have htext := h.tidy.queryText_render
    rw [queryText_eq] at htext
    rw [← htext, String.toList_ofList]
  have hclean : queryChars (clean u.render) = (u.query.getD "").toList := by
    rw [← hquery]
    exact queryChars_clean (by rw [hquery]; exact h.query.lt)
  rw [Url.query_of_parse hv, hclean, h.scheme_of_parse hv, h.query.escape_eq, String.ofList_toList]

/-- The pairs are still there when the text of a URL is read again. -/
theorem Proper.pairs_of_parse {u v : Url} (h : u.Proper) (hv : parse u.render = .ok v) : v.pairs = u.pairs := by
  rw [pairs, pairs, h.query_of_parse hv]

end ChatWire.Url
