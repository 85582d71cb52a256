import ChatWire.Proofs.Url.Reread

/-! URLs of the well-known schemes. What stands behind the slashes is read alike for all of them, but for the port that
goes without saying, and whether it is read at all is a matter of the site alone. -/

namespace ChatWire.Url

theorem isScheme_of_isSpecial {scheme : String} (h : isSpecial scheme) : IsScheme scheme.toList := by
  have hscheme {c : Char} {r : List Char} (halpha : isAlpha c)
      (hall : (c :: r).all fun d => isSchemeChar d && d.toLower == d) : IsScheme (c :: r) :=
    ⟨⟨c, r, rfl, halpha⟩, by simpa using hall⟩
  simp only [isSpecial, List.contains_eq_mem, List.mem_cons, List.not_mem_nil, or_false, decide_eq_true_eq] at h
  rcases h with rfl | rfl | rfl | rfl | rfl | rfl <;> exact hscheme (by decide) (by decide)

/-- What is read behind the slashes. -/
theorem parse_special {scheme : String} (hspecial : isSpecial scheme) (hfile : scheme ≠ "file") (r : String) :
    parse (scheme ++ "://" ++ r) = parseWithSite scheme ((shear r.toList).dropWhile (isSlash true)) := by
  have hscheme := isScheme_of_isSpecial hspecial
  have hvisible : ∀ c ∈ scheme.toList ++ [':', '/', '/'], 32 < c.toNat := by
    intro c hc
    rcases List.mem_append.1 hc with hc | hc
    · exact hscheme.lt c hc
    · exact (by simp : ∀ c ∈ [':', '/', '/'], 32 < c.toNat) c hc
  have htext : (scheme ++ "://" ++ r).toList = scheme.toList ++ [':', '/', '/'] ++ r.toList := by
    rw [String.toList_append, String.toList_append]
    rfl
  rw [parse, clean_append htext (by simp) hvisible, List.append_assoc, List.cons_append, scheme?_of_isScheme hscheme]
  simp only
  rw [if_neg hfile, if_pos hspecial, List.cons_append, List.dropWhile_cons_of_pos (by rfl), List.cons_append,
    List.dropWhile_cons_of_pos (by rfl), List.nil_append]

/-- A scheme matters by the rules that come with it. -/
theorem parseWithSite_scheme {a b : String} (hspecial : isSpecial a = isSpecial b)
    (hport : defaultPort? a = defaultPort? b) (hfile : (a == "file") = (b == "file")) (s : List Char) :
    parseWithSite a s = (parseWithSite b s).map fun u => { u with scheme := a } := by
  have hsite (text : List Char) : parseSite a text = parseSite b text := by
    simp only [parseSite, hspecial, hport]
  have hpath (text : List Char) : parsePath a text = parsePath b text := by
    simp only [parsePath, hspecial, hfile]
  simp only [parseWithSite, hspecial, hsite, hpath]
  split
  · rfl
  · cases parseSite b (s.takeWhile fun c => !endsSite (isSpecial b) c) <;> rfl

/-- Schemes with the same port may be exchanged. -/
theorem parse_exchange {a b : String} (ha : isSpecial a ∧ a ≠ "file") (hb : isSpecial b ∧ b ≠ "file")
    (hport : defaultPort? a = defaultPort? b) (r : String) :
    parse (a ++ "://" ++ r) = (parse (b ++ "://" ++ r)).map fun u => { u with scheme := a } := by
  have hfile : (a == "file") = (b == "file") := by
    rw [beq_eq_false_iff_ne.2 ha.2, beq_eq_false_iff_ne.2 hb.2]
  rw [parse_special ha.1 ha.2, parse_special hb.1 hb.2, parseWithSite_scheme (ha.1.trans hb.1.symm) hport hfile]

/-! Sites. -/

theorem ne_of_parseSite {scheme : String} {text : List Char} {s : Site} (hspecial : isSpecial scheme)
    (h : parseSite scheme text = .ok s) : text ≠ [] ∧ text ≠ ['@'] := by
  constructor <;> rintro rfl <;> rw [parseSite, hspecial] at h <;> cases h

/-- What comes behind a site does not matter, as long as the site ends. -/
theorem exists_parseWithSite {scheme : String} {text : List Char} {s : Site} (hspecial : isSpecial scheme)
    (hsite : parseSite scheme text = .ok s) (htext : ∀ c ∈ text, !endsSite true c) (rest : List Char) :
    ∃ u, parseWithSite scheme (text ++ '/' :: rest) = .ok u := by
  have htake : ((text ++ '/' :: rest).takeWhile fun c => !endsSite true c) = text := by
    rw [List.takeWhile_append_of_pos htext, List.takeWhile_cons_of_neg (by decide), List.append_nil]
  simp only [parseWithSite, hspecial, htake, hsite, (ne_of_parseSite hspecial hsite).2, false_and, if_false]
  exact ⟨_, rfl⟩

/-- Whether nothing in a text is blank, or ends a site. -/
def IsAddress (s : List Char) : Prop := ∀ c ∈ s, 32 < c.toNat ∧ !endsSite true c

instance (s : List Char) : Decidable (IsAddress s) := List.decidableBAll _ s

theorem exists_parse_of_site {scheme address : String} {s : Site} (hspecial : isSpecial scheme) (hfile : scheme ≠ "file")
    (haddress : IsAddress address.toList) (hsite : parseSite scheme address.toList = .ok s) (r : String) :
    ∃ u, parse (scheme ++ "://" ++ (address ++ ("/" ++ r))) = .ok u := by
  have hvisible : ∀ c ∈ address.toList ++ ['/'], 32 < c.toNat := by
    intro c hc
    rcases List.mem_append.1 hc with hc | hc
    · exact (haddress c hc).1
    · rw [List.mem_singleton.1 hc]
      decide
  have htext : (address ++ ("/" ++ r)).toList = address.toList ++ ['/'] ++ r.toList := by
    rw [String.toList_append, String.toList_append, List.append_assoc]
    rfl
  have hdrop : (address.toList ++ '/' :: shear r.toList).dropWhile (isSlash true) =
      address.toList ++ '/' :: shear r.toList := by
    obtain ⟨c, rest, hfirst⟩ := List.exists_cons_of_ne_nil (ne_of_parseSite hspecial hsite).1
    have hc := (haddress c (hfirst ▸ List.mem_cons_self ..)).2
    simp only [endsSite, Bool.not_eq_true', Bool.or_eq_false_iff] at hc
    rw [hfirst, List.cons_append, List.dropWhile_cons_of_neg (by rw [hc.1.1]; exact Bool.false_ne_true)]
  rw [parse_special hspecial hfile, htext, shear_append hvisible, List.append_assoc, List.singleton_append, hdrop]
  exact exists_parseWithSite hspecial hsite (fun c hc => (haddress c hc).2) _

/-! URLs with more pairs. -/

/-- Whether the text of a URL is read as a URL again, whatever pairs are added. -/
def Rereads (u : Url) : Prop := ∀ pairs, ∃ v, parse (u.append pairs).render = .ok v

/-- A path of parts begins with a slash. -/
theorem exists_render {u : Url} {s : Site} {part : String} {parts : List String} (hs : u.site = some s)
    (hpath : u.path = .segments (part :: parts)) : ∃ r, u.render = u.scheme ++ (":" ++ s.render) ++ ("/" ++ r) := by
  have hparts : u.pathText = "/" ++ (part ++ String.join (parts.map ("/" ++ ·))) := by
    rw [pathText, hpath, ← String.append_assoc]
    exact String.join_cons
  rw [render, hs, hparts]
  simp only [String.append_assoc]
  exact ⟨_, rfl⟩

/-- The path and the query of a URL are read again wherever its site is. -/
theorem rereads_of_site (address : String) {u : Url} {s : Site} {part : String} {parts : List String}
    (hspecial : isSpecial u.scheme) (hfile : u.scheme ≠ "file") (hs : u.site = some s)
    (hpath : u.path = .segments (part :: parts)) (hrender : s.render = "//" ++ address)
    (haddress : IsAddress address.toList) (hsite : parseSite u.scheme address.toList = .ok s) : u.Rereads := by
  intro pairs
  obtain ⟨q, hq⟩ := exists_append u pairs
  obtain ⟨r, hr⟩ : ∃ r, render { u with query := q } = u.scheme ++ (":" ++ s.render) ++ ("/" ++ r) :=
    exists_render hs hpath
  have hslashes : ":" ++ ("//" ++ address) = "://" ++ address := String.append_assoc.symm
  have htext : (u.append pairs).render = u.scheme ++ "://" ++ (address ++ ("/" ++ r)) := by
    rw [hq, hr, hrender, hslashes]
    simp only [String.append_assoc]
  rw [htext]
  exact exists_parse_of_site hspecial hfile haddress hsite r

end ChatWire.Url
