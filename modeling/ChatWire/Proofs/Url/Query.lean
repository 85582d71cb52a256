import ChatWire.Proofs.Url.Marks
import ChatWire.Proofs.Url.Neat

/-! The query of a URL in its text. It is what stands behind the first question mark, up to a number sign, and pairs
that are added come behind those that are there. -/

namespace ChatWire.Url

/-- A URL in whose text the signs mark its query and its fragment, and nothing else. -/
structure Tidy (u : Url) : Prop where
  scheme : Unmarked u.scheme.toList
  site : ∀ s, u.site = some s → Unmarked s.render.toList
  path : Unmarked u.pathText.toList
  query : ∀ q, u.query = some q → '#' ∉ q.toList

/-! A URL that was read is tidy. -/

theorem not_mem_escape {set : UInt8 → Bool} (h : set 35) (s : List Char) : '#' ∉ (escape set s).toList := by
  intro hc
  rcases Percent.mem_encode hc with ⟨-, hset⟩ | hc | ⟨n, hn, hc⟩
  · exact absurd hset (by simpa using h)
  · cases hc
  · exact (unmarked_upperDigit n hn).2 hc.symm

theorem lt_of_isSchemeChar {c : Char} (h : isSchemeChar c) : c.toNat < 128 := by
  have hle {d : Char} (hcd : c ≤ d) : c.toNat ≤ d.toNat := hcd
  simp only [isSchemeChar, isAlpha, Bool.or_eq_true, Bool.and_eq_true, decide_eq_true_eq, beq_iff_eq] at h
  rcases h with ((((⟨-, h⟩ | ⟨-, h⟩) | ⟨-, h⟩) | rfl) | rfl) | rfl
  · exact (hle h).trans_lt (by decide)
  · exact (hle h).trans_lt (by decide)
  · exact (hle h).trans_lt (by decide)
  all_goals decide

theorem unmarked_lower {c : Char} (h : isSchemeChar c) : c.toLower ≠ '?' ∧ c.toLower ≠ '#' := by
  have hall : ∀ n < 128, isSchemeChar (Char.ofNat n) →
      (Char.ofNat n).toLower ≠ '?' ∧ (Char.ofNat n).toLower ≠ '#' := by decide
  have hc := hall c.toNat (lt_of_isSchemeChar h)
  rw [Char.ofNat_toNat] at hc
  exact hc h

theorem unmarked_of_scheme? {s rest : List Char} {scheme : String} (h : scheme? s = some (scheme, rest)) :
    Unmarked scheme.toList := by
  unfold scheme? at h
  simp only at h
  split at h
  · split_ifs at h
    cases h
    rw [String.toList_ofList]
    intro c hc
    obtain ⟨d, hd, rfl⟩ := List.mem_map.1 hc
    exact unmarked_lower (List.all_eq_true.1 List.all_takeWhile d hd)
  · cases h

theorem unmarked_render {s : Site} (husername : Unmarked s.username.toList) (hpassword : Unmarked s.password.toList)
    (hhost : Unmarked s.host.render.toList) : Unmarked s.render.toList := by
  have hsecret : Unmarked (if s.password.isEmpty then "" else ":" ++ s.password).toList := by
    split_ifs
    · exact .nil
    · rw [String.toList_append]
      exact Unmarked.append (by decide : Unmarked [':']) hpassword
  have hport : Unmarked ((s.port.map fun n => ":" ++ toString n).getD "").toList := by
    cases s.port with
    | none => exact .nil
    | some n =>
      rw [Option.map_some, Option.getD_some, String.toList_append]
      exact Unmarked.append (by decide : Unmarked [':']) (unmarked_toString n)
  have hcredentials (t : String) (ht : Unmarked t.toList) :
      Unmarked (if t.isEmpty then "" else t ++ "@").toList := by
    split_ifs
    · exact .nil
    · rw [String.toList_append]
      exact ht.append (by decide : Unmarked ['@'])
  have hfront := hcredentials _ (by rw [String.toList_append]; exact husername.append hsecret)
  unfold Site.render
  rw [String.toList_append, String.toList_append, String.toList_append]
  exact ((Unmarked.append (by decide : Unmarked ['/', '/']) hfront).append hhost).append hport

/-- the parts of a site that was read -/
theorem exists_of_parseSite {scheme : String} {text : List Char} {s : Site} (h : parseSite scheme text = .ok s) :
    (∃ user, s.username = escape escapedInUser user) ∧ (∃ password, s.password = escape escapedInUser password) ∧
      ∃ t, Host.parse t = .ok s.host ∨ Host.parseOpaque t = .ok s.host := by
  revert h
  unfold parseSite
  -- with or without credentials, and for either kind of host, the rest is the same
  cases splitCredentials? text
  all_goals
    simp only [bind, Except.bind, pure, Except.pure, throw, throwThe, MonadExceptOf.throw]
    split_ifs
    · exact fun h => nomatch h
    all_goals
      split
      · exact fun h => nomatch h
      next host hhost =>
      split_ifs
      · exact fun h => nomatch h
      split
      · rintro ⟨⟩
        exact ⟨⟨_, rfl⟩, ⟨_, rfl⟩, _, by first | exact .inl hhost | exact .inr hhost⟩
      · exact fun h => nomatch h

theorem unmarked_of_parseSite {scheme : String} {text : List Char} {s : Site} (h : parseSite scheme text = .ok s) :
    Unmarked s.render.toList := by
  obtain ⟨⟨user, husername⟩, ⟨password, hpassword⟩, t, hhost⟩ := exists_of_parseSite h
  apply unmarked_render
  · rw [husername]
    exact unmarked_escape (by decide) (by decide) user
  · rw [hpassword]
    exact unmarked_escape (by decide) (by decide) password
  · exact hhost.elim unmarked_of_parseHost unmarked_of_parseOpaque

theorem unmarked_of_isAlpha {c : Char} (h : isAlpha c) : c ≠ '?' ∧ c ≠ '#' := by
  constructor <;> rintro rfl <;> exact absurd h (by decide)

theorem unmarked_drive {part : List Char} (h : isDrive part) :
    Unmarked (String.ofList (part.take 1 ++ [':'])).toList := by
  unfold isDrive at h
  split at h
  · next c d =>
    rw [Bool.and_eq_true] at h
    rw [String.toList_ofList]
    exact .cons (unmarked_of_isAlpha h.1) (by decide : Unmarked [':'])
  · cases h

theorem shorten_subset (file : Bool) (parts : List String) : shorten file parts ⊆ parts := by
  cases parts with
  | nil => exact List.Subset.refl _
  | cons p r =>
    rw [shorten]
    split_ifs with h
    · intro q hq
      rw [List.mem_singleton.1 hq]
      exact List.mem_cons_self ..
    · exact List.subset_cons_self p r

/-- A part of a path is escaped, or a drive, or empty. -/
theorem unmarked_resolve (file : Bool) (parts : List (List Char)) {done : List String}
    (h : ∀ p ∈ done, Unmarked p.toList) : ∀ p ∈ resolve file parts done, Unmarked p.toList := by
  induction parts generalizing done with
  | nil => exact fun p hp => h p (List.mem_reverse.1 hp)
  | cons part rest ih =>
    have hput {p : String} (hp : Unmarked p.toList) {l : List String} (hl : ∀ q ∈ l, Unmarked q.toList) :
        ∀ q ∈ p :: l, Unmarked q.toList := by
      intro q hq
      rcases List.mem_cons.1 hq with rfl | hq
      · exact hp
      · exact hl q hq
    have hshorten : ∀ p ∈ shorten file done, Unmarked p.toList := fun p hp => h p (shorten_subset file done hp)
    rw [resolve]
    simp only
    split_ifs with _ _ _ _ hdrive
    · exact ih (hput (by decide) hshorten)
    · exact ih hshorten
    · exact ih (hput (by decide) h)
    · exact ih h
    · exact ih (hput (unmarked_drive hdrive.2.2) h)
    · exact ih (hput (unmarked_escape (by decide) (by decide) part) h)

theorem dropEmpty_subset (parts : List String) : dropEmpty parts ⊆ parts := by
  induction parts using dropEmpty.induct with
  | case1 p r ih =>
    rw [dropEmpty]
    exact List.Subset.trans ih (List.subset_cons_self ..)
  | case2 l h =>
    rw [dropEmpty]
    · exact List.Subset.refl _
    · exact h

theorem unmarked_parsePath (scheme : String) (text : List Char) :
    ∃ parts, parsePath scheme text = .segments parts ∧ ∀ p ∈ parts, Unmarked p.toList := by
  cases text with
  | nil =>
    refine ⟨_, rfl, ?_⟩
    split_ifs
    · intro p hp
      rw [List.mem_singleton.1 hp]
      exact .nil
    · exact fun p hp => absurd hp List.not_mem_nil
  | cons c r =>
    have hparts (l : List (List Char)) : ∀ p ∈ resolve (scheme == "file") l [], Unmarked p.toList :=
      unmarked_resolve _ l fun p hp => absurd hp List.not_mem_nil
    refine ⟨_, rfl, ?_⟩
    split
    · exact fun p hp => hparts _ p (dropEmpty_subset _ hp)
    · exact hparts _

/-- a path of parts between slashes -/
theorem unmarked_pathText {u : Url} {parts : List String} (hu : u.path = .segments parts)
    (h : ∀ p ∈ parts, Unmarked p.toList) : Unmarked u.pathText.toList := by
  rw [pathText, hu]
  simp only
  rw [String.toList_join, List.flatMap_map]
  intro c hc
  obtain ⟨p, hp, hc⟩ := List.mem_flatMap.1 hc
  rw [String.toList_append] at hc
  exact Unmarked.append (by decide : Unmarked ['/']) (h p hp) c hc

/-- The text before the query is free of both signs, and the query of one. -/
theorem splitTail_tidy (special : Bool) (s : List Char) :
    Unmarked (splitTail special s).1 ∧ ∀ q, (splitTail special s).2.1 = some q → '#' ∉ q.toList := by
  unfold splitTail
  simp only
  constructor
  · intro c hc
    have hboth := List.all_eq_true.1 List.all_takeWhile c hc
    simpa using hboth
  · intro q hq
    split at hq
    · cases hq
      exact not_mem_escape (by simp [escapedInQuery]) _
    · cases hq

/-- All that follows the site is read alike. -/
theorem tidy_of_parts {scheme : String} {site : Option Site} (hscheme : Unmarked scheme.toList)
    (hsite : ∀ s, site = some s → Unmarked s.render.toList) (special : Bool) (rest : List Char) :
    Tidy ⟨scheme, site, parsePath scheme (splitTail special rest).1, (splitTail special rest).2.1,
      (splitTail special rest).2.2⟩ := by
  obtain ⟨parts, hpath, hparts⟩ := unmarked_parsePath scheme (splitTail special rest).1
  exact ⟨hscheme, hsite, unmarked_pathText hpath hparts, (splitTail_tidy special rest).2⟩

theorem tidy_of_parseWithSite {scheme : String} {s : List Char} {u : Url} (hscheme : Unmarked scheme.toList)
    (h : parseWithSite scheme s = .ok u) : u.Tidy := by
  unfold parseWithSite at h
  simp only [bind, Except.bind, pure, Except.pure, throw, throwThe, MonadExceptOf.throw] at h
  split at h
  · cases h
  split at h
  · cases h
  next site hsite =>
  cases h
  apply tidy_of_parts hscheme
  rintro s ⟨⟩
  exact unmarked_of_parseSite hsite

/-- The site of a file has a host at most. -/
theorem tidy_of_file {host : Host} (hhost : Unmarked host.render.toList) (rest : List Char) :
    Tidy ⟨"file", some ⟨"", "", host, none⟩, parsePath "file" (splitTail true rest).1, (splitTail true rest).2.1,
      (splitTail true rest).2.2⟩ := by
  apply tidy_of_parts (by decide)
  rintro s ⟨⟩
  exact unmarked_render .nil .nil hhost

theorem unmarked_of_fileHost {text : List Char} {host : Host} (h : fileHost text = .ok host) :
    Unmarked host.render.toList := by
  unfold fileHost at h
  split_ifs at h
  · cases h
    exact .nil
  · simp only [bind, Except.bind, pure, Except.pure] at h
    split at h
    · cases h
    next host hhost =>
    cases h
    split_ifs
    · exact .nil
    · exact unmarked_of_parseHost hhost

theorem unmarked_empty : Unmarked Host.empty.render.toList := .nil

theorem tidy_of_parseFile {s : List Char} {u : Url} (h : parseFile s = .ok u) : u.Tidy := by
  unfold parseFile at h
  simp only [bind, Except.bind, pure, Except.pure] at h
  split at h
  · split_ifs at h
    · cases h
      exact tidy_of_file unmarked_empty _
    · split at h
      · cases h
      next host hhost =>
      cases h
      exact tidy_of_file (unmarked_of_fileHost hhost) _
    · cases h
      exact tidy_of_file unmarked_empty _
  · cases h
    exact tidy_of_file unmarked_empty _

theorem tidy_of_parsePlain {scheme : String} {s : List Char} {u : Url} (hscheme : Unmarked scheme.toList)
    (h : parsePlain scheme s = .ok u) : u.Tidy := by
  unfold parsePlain at h
  split at h
  · exact tidy_of_parseWithSite hscheme h
  · cases h
    have hnone : ∀ s : Site, none = some s → Unmarked s.render.toList := fun _ hs => nomatch hs
    simp only
    split
    · exact tidy_of_parts hscheme hnone false s
    · obtain ⟨hpath, hquery⟩ := splitTail_tidy false s
      exact ⟨hscheme, hnone, hpath.encode _, hquery⟩

theorem tidy_of_parse {text : String} {u : Url} (h : parse text = .ok u) : u.Tidy := by
  unfold parse at h
  split at h
  · cases h
  next scheme rest hscheme =>
  split_ifs at h
  · exact tidy_of_parseFile h
  · exact tidy_of_parseWithSite (unmarked_of_scheme? hscheme) h
  · exact tidy_of_parsePlain (unmarked_of_scheme? hscheme) h

/-! The query as text, and pairs added to it. -/

/-- What stands in a text behind the first question mark, up to a number sign. -/
def queryText (text : String) : String :=
  String.ofList (((text.toList.takeWhile (· != '#')).dropWhile (· != '?')).drop 1)

/-- the text of a URL before its query -/
def front (u : Url) : String :=
  u.scheme ++ ":" ++
    (match u.site, u.path with
      | some s, _ => s.render
      | none, .segments ("" :: _ :: _) => "/."
      | none, _ => "") ++ u.pathText

theorem Tidy.unmarked_front {u : Url} (h : u.Tidy) : Unmarked u.front.toList := by
  rw [front, String.toList_append, String.toList_append, String.toList_append]
  refine ((h.scheme.append (by decide : Unmarked [':'])).append ?_).append h.path
  split
  · next _ s hs => exact h.site s hs
  · exact (by decide : Unmarked ['/', '.'])
  · exact .nil

/-- The query of a URL is found in its text. -/
theorem Tidy.queryText_render {u : Url} (h : u.Tidy) : queryText u.render = u.query.getD "" := by
  have hfront (p : Char → Bool) (hp : ∀ c, c ≠ '?' → c ≠ '#' → p c) : ∀ c ∈ u.front.toList, p c := fun c hc =>
    hp c (h.unmarked_front c hc).1 (h.unmarked_front c hc).2
  have htext : u.render = u.front ++ (u.query.map ("?" ++ ·)).getD "" ++ (u.fragment.map ("#" ++ ·)).getD "" := rfl
  have hquery : ∀ c ∈ ((u.query.map ("?" ++ ·)).getD "").toList, c != '#' := by
    cases hq : u.query with
    | none => simp
    | some q =>
      intro c hc
      rw [Option.map_some, Option.getD_some, String.toList_append] at hc
      rcases List.mem_append.1 hc with hc | hc
      · rw [List.mem_singleton.1 hc]
        decide
      · rw [bne_iff_ne]
        rintro rfl
        exact h.query q hq hc
  have hfragment : (((u.fragment.map ("#" ++ ·)).getD "").toList.takeWhile (· != '#')) = [] := by
    cases u.fragment with
    | none => rfl
    | some f =>
      rw [Option.map_some, Option.getD_some, String.toList_append]
      rfl
  have hbefore : u.render.toList.takeWhile (· != '#') =
      u.front.toList ++ ((u.query.map ("?" ++ ·)).getD "").toList := by
    rw [htext, String.toList_append, String.toList_append, List.takeWhile_append_of_pos, hfragment, List.append_nil]
    intro c hc
    rcases List.mem_append.1 hc with hc | hc
    · exact hfront (· != '#') (fun c _ hne => bne_iff_ne.2 hne) c hc
    · exact hquery c hc
  have hbehind : (u.front.toList ++ ((u.query.map ("?" ++ ·)).getD "").toList).dropWhile (· != '?') =
      ((u.query.map ("?" ++ ·)).getD "").toList := by
    rw [List.dropWhile_append_of_pos (hfront (· != '?') fun c hne _ => bne_iff_ne.2 hne)]
    cases u.query with
    | none => rfl
    | some q =>
      rw [Option.map_some, Option.getD_some, String.toList_append]
      rfl
  rw [queryText, hbefore, hbehind]
  cases u.query with
  | none => rfl
  | some q =>
    rw [Option.map_some, Option.getD_some, String.toList_append, Option.getD_some]
    exact String.ofList_toList

/-! Pairs that are added. -/

theorem hash_not_mem_encodePairs (pairs : List (String × String)) : '#' ∉ (Form.encodePairs pairs).toList :=
  (isNeat_encodePairs true pairs).hash_not_mem

theorem append_eq (u : Url) {pairs : List (String × String)} (h : pairs ≠ []) :
    u.append pairs = { u with query := some (match u.query with
      | none | some "" => Form.encodePairs pairs
      | some q => q ++ "&" ++ Form.encodePairs pairs) } :=
  if_neg (by simpa using h)

/-- Besides the query nothing changes. -/
theorem exists_append (u : Url) (pairs : List (String × String)) : ∃ q, u.append pairs = { u with query := q } := by
  by_cases hempty : pairs = []
  · exact ⟨u.query, by rw [hempty]; rfl⟩
  · exact ⟨_, append_eq u hempty⟩

theorem Tidy.append {u : Url} (h : u.Tidy) (pairs : List (String × String)) : (u.append pairs).Tidy := by
  by_cases hempty : pairs = []
  · subst hempty
    exact h
  rw [append_eq u hempty]
  refine ⟨h.scheme, h.site, h.path, ?_⟩
  rintro q ⟨⟩
  split
  · exact hash_not_mem_encodePairs pairs
  · exact hash_not_mem_encodePairs pairs
  · next q _ hq =>
    rw [String.toList_append, String.toList_append, List.mem_append, List.mem_append]
    rintro ((hmem | hmem) | hmem)
    · exact h.query q hq hmem
    · exact absurd hmem (by decide)
    · exact hash_not_mem_encodePairs pairs hmem

/-- Pairs come behind those that are there. -/
theorem pairs_append (u : Url) (pairs : List (String × String)) : (u.append pairs).pairs = u.pairs ++ pairs := by
  by_cases hempty : pairs = []
  · subst hempty
    exact (List.append_nil _).symm
  rw [append_eq u hempty, Url.pairs, Url.pairs]
  simp only [Option.getD_some]
  split
  · next hq => rw [hq, Form.decodePairs_encodePairs]; rfl
  · next hq => rw [hq, Form.decodePairs_encodePairs]; rfl
  · next q _ hq => rw [hq, Form.decodePairs_append, Form.decodePairs_encodePairs, Option.getD_some]

/-- The pairs that are read off the text of a URL to which some have been added. -/
theorem Tidy.pairs_of_text {u : Url} (h : u.Tidy) (pairs : List (String × String)) :
    Form.decodePairs (queryText (u.append pairs).render) = u.pairs ++ pairs := by
  rw [(h.append pairs).queryText_render]
  exact pairs_append u pairs

end ChatWire.Url
