import ChatWire.Proofs.Session.MakeUrl
import ChatWire.Proofs.Text.Decimal

/-! URLs of handshakes. A handshake is signed over the pairs that are read in its text, and stamped with the time of its
dial unless the endpoint comes with a stamp. -/

namespace ChatWire.Session

/-- the pairs that are read in the text of a URL -/
def textPairs (url : String) : List (String × String) := Form.decodePairs (Url.queryText url)

/-- what is given under a name -/
def valuesOf (name : String) (pairs : List (String × String)) : List String :=
  (pairs.filter fun p => p.1 = name).map Prod.snd

theorem valuesOf_append (name : String) (a b : List (String × String)) :
    valuesOf name (a ++ b) = valuesOf name a ++ valuesOf name b := by
  rw [valuesOf, List.filter_append, List.map_append, valuesOf, valuesOf]

theorem valuesOf_eq_nil_iff {name : String} {pairs : List (String × String)} :
    valuesOf name pairs = [] ↔ name ∉ pairs.map Prod.fst := by
  rw [valuesOf, List.map_eq_nil_iff, List.filter_eq_nil_iff, List.mem_map]
  constructor
  · rintro h ⟨p, hp, rfl⟩
    exact h p hp (decide_eq_true rfl)
  · exact fun h p hp hname => h ⟨p, hp, of_decide_eq_true hname⟩

theorem valuesOf_eq_nil_of_subset {name : String} {a b : List (String × String)} (h : a ⊆ b)
    (hb : name ∉ b.map Prod.fst) : valuesOf name a = [] :=
  valuesOf_eq_nil_iff.2 fun hname => hb (List.map_subset _ h hname)

/-! The endpoint with its stamps. -/

/-- What an endpoint lacks of a time stamp and the version. -/
def stamps (s : Session) (u : Url) (nowMs : Int) : List (String × String) :=
  (("t", toString nowMs) :: s.versionPairs).filter fun p => p.1 ∉ u.pairs.map Prod.fst

/-- the URL that is signed -/
def stamped (s : Session) (u : Url) (nowMs : Int) : Url := u.append (s.stamps u nowMs)

theorem stamp_names (s : Session) (nowMs : Int) :
    (("t", toString nowMs) :: s.versionPairs).map Prod.fst = ["t", "zpw_ver", "zpw_type"] := rfl

theorem stamps_names_subset (s : Session) (u : Url) (nowMs : Int) :
    (s.stamps u nowMs).map Prod.fst ⊆ ["t", "zpw_ver", "zpw_type"] := by
  rw [← s.stamp_names nowMs]
  exact List.map_subset _ (List.filter_subset_self _)

/-- An endpoint without a time gets the stamp. -/
theorem stamps_of_timeless {u : Url} (h : valuesOf "t" u.pairs = []) (s : Session) (nowMs : Int) :
    s.stamps u nowMs = ("t", toString nowMs) :: s.versionPairs.filter fun p => p.1 ∉ u.pairs.map Prod.fst :=
  List.filter_cons_of_pos (decide_eq_true (valuesOf_eq_nil_iff.1 h))

/-- At an endpoint with a time of its own the stamp makes no difference. -/
theorem stamps_of_timed {u : Url} (h : valuesOf "t" u.pairs ≠ []) (s : Session) (nowMs : Int) :
    s.stamps u nowMs = s.versionPairs.filter fun p => p.1 ∉ u.pairs.map Prod.fst :=
  List.filter_cons_of_neg fun hnone => h (valuesOf_eq_nil_iff.2 (of_decide_eq_true hnone))

theorem times_stamps (s : Session) (u : Url) (nowMs : Int) :
    valuesOf "t" (s.stamps u nowMs) = if valuesOf "t" u.pairs = [] then [toString nowMs] else [] := by
  have hversion : valuesOf "t" (s.versionPairs.filter fun p => p.1 ∉ u.pairs.map Prod.fst) = [] :=
    valuesOf_eq_nil_of_subset (List.filter_subset_self _) (by simp [versionPairs])
  split_ifs with h
  · rw [stamps_of_timeless h, valuesOf, List.filter_cons_of_pos (by simp), List.map_cons]
    exact congrArg _ hversion
  · rw [stamps_of_timed h, hversion]

theorem makeUrl_stamped (s : Session) {endpoint : String} {u : Url} (hu : Url.parse endpoint = .ok u) (nowMs : Int) :
    s.makeUrl endpoint [("t", toString nowMs)] true = .ok (s.stamped u nowMs).render := by
  have hnodup : ((("t", toString nowMs) :: s.versionPairs).map Prod.fst).Nodup := by
    rw [stamp_names]
    decide
  rw [s.makeUrl_eq hu, if_pos rfl, List.singleton_append, missingPairs_of_nodup hnodup, stamped, stamps]
  simp only [List.contains_eq_mem, decide_not]

/-! The signature. -/

/-- What a list of pairs lacks of a signature over it. -/
def signature (pairs : List (String × String)) : List (String × String) :=
  missingPairs (pairs.map Prod.fst) [("signkey", Signature.sign handshakeCall pairs)]

theorem signature_of_unsigned {pairs : List (String × String)} (h : "signkey" ∉ pairs.map Prod.fst) :
    signature pairs = [("signkey", Signature.sign handshakeCall pairs)] := by
  rw [signature, missingPairs, if_neg (by simpa using h), missingPairs]

theorem times_signature (pairs : List (String × String)) : valuesOf "t" (signature pairs) = [] :=
  valuesOf_eq_nil_of_subset (missingPairs_sublist ..).subset (by simp)

/-- The signature stands alone, and what is left without it is what it is over. -/
theorem signed_of_unsigned {pairs : List (String × String)} (h : "signkey" ∉ pairs.map Prod.fst) :
    valuesOf "signkey" (pairs ++ signature pairs) = [Signature.sign handshakeCall pairs] ∧
      (pairs ++ signature pairs).filter (fun p => p.1 ≠ "signkey") = pairs := by
  have hothers : pairs.filter (fun p => p.1 ≠ "signkey") = pairs := by
    rw [List.filter_eq_self]
    exact fun p hp => decide_eq_true fun hname => h (hname ▸ List.mem_map_of_mem hp)
  rw [signature_of_unsigned h]
  constructor
  · rw [valuesOf_append, valuesOf_eq_nil_iff.2 h]
    rfl
  · rw [List.filter_append, hothers, List.filter_cons_of_neg (by simp), List.filter_nil, List.append_nil]

/-- The stamped URL is read again before it is signed. -/
theorem handshakeUrl_eq_ok_iff (s : Session) (endpoint : String) (nowMs : Int) (url : String) :
    s.handshakeUrl endpoint nowMs = .ok url ↔
      ∃ u v, Url.parse endpoint = .ok u ∧ Url.parse (s.stamped u nowMs).render = .ok v ∧
        (v.append (signature v.pairs)).render = url := by
  have hsigned {u v : Url} (hu : Url.parse endpoint = .ok u) (hv : Url.parse (s.stamped u nowMs).render = .ok v) :
      s.handshakeUrl endpoint nowMs = .ok (v.append (signature v.pairs)).render := by
    rw [handshakeUrl, s.makeUrl_stamped hu]
    simp only [bind, Except.bind, parseUrl, hv, Except.mapError]
    rw [s.makeUrl_eq hv, if_neg (by decide), List.append_nil, signature]
  constructor
  · intro h
    cases hu : Url.parse endpoint with
    | error e =>
      rw [handshakeUrl, makeUrl, parseUrl, hu] at h
      cases h
    | ok u =>
      cases hv : Url.parse (s.stamped u nowMs).render with
      | error e =>
        rw [handshakeUrl, s.makeUrl_stamped hu] at h
        simp only [bind, Except.bind, parseUrl, hv, Except.mapError] at h
        cases h
      | ok v => exact ⟨u, v, rfl, hv, Except.ok.inj ((hsigned hu hv).symm.trans h)⟩
  · rintro ⟨u, v, hu, hv, rfl⟩
    exact hsigned hu hv

/-- What is read in the text of a handshake URL: the pairs of the endpoint, the stamps, the signature over both. -/
theorem textPairs_handshakeUrl {s : Session} {endpoint : String} {u : Url} (hu : Url.parse endpoint = .ok u)
    {nowMs : Int} {url : String} (h : s.handshakeUrl endpoint nowMs = .ok url) :
    textPairs url = u.pairs ++ s.stamps u nowMs ++ signature (u.pairs ++ s.stamps u nowMs) := by
  obtain ⟨u', v, hu', hv, rfl⟩ := (s.handshakeUrl_eq_ok_iff ..).1 h
  cases hu.symm.trans hu'
  have hpairs : v.pairs = u.pairs ++ s.stamps u nowMs := by
    rw [((Url.proper_of_parse hu).append _).pairs_of_parse hv, Url.pairs_append]
  rw [textPairs, (Url.tidy_of_parse hv).pairs_of_text, hpairs]

/-- Who reads the URL as such gets the same pairs. -/
theorem pairs_of_parse_handshakeUrl {s : Session} {endpoint : String} {nowMs : Int} {url : String} {w : Url}
    (h : s.handshakeUrl endpoint nowMs = .ok url) (hw : Url.parse url = .ok w) : w.pairs = textPairs url := by
  obtain ⟨u, v, -, hv, rfl⟩ := (s.handshakeUrl_eq_ok_iff ..).1 h
  have hproper := Url.proper_of_parse hv
  rw [(hproper.append _).pairs_of_parse hw, Url.pairs_append, textPairs, hproper.tidy.pairs_of_text]

/-- A server that reads the URL of a handshake finds one signature, and it is the one over all other pairs. -/
theorem handshakes_verify (s : Session) {endpoint : String} {u v : Url} (nowMs : Int)
    (hu : Url.parse endpoint = .ok u) (hv : Url.parse (s.stamped u nowMs).render = .ok v)
    (hfree : "signkey" ∉ u.pairs.map Prod.fst) :
    ∃ url key, s.handshakeUrl endpoint nowMs = .ok url ∧
      textPairs url = u.pairs ++ s.stamps u nowMs ++ [("signkey", key)] ∧
      valuesOf "signkey" (textPairs url) = [key] ∧
      key = Signature.sign "listen" ((textPairs url).filter fun p => p.1 ≠ "signkey") ∧
      ∀ w, Url.parse url = .ok w → w.pairs = textPairs url := by
  obtain ⟨url, hurl⟩ : ∃ url, s.handshakeUrl endpoint nowMs = .ok url :=
    ⟨_, (s.handshakeUrl_eq_ok_iff ..).2 ⟨u, v, hu, hv, rfl⟩⟩
  have hunsigned : "signkey" ∉ (u.pairs ++ s.stamps u nowMs).map Prod.fst := by
    rw [List.map_append, List.mem_append, not_or]
    exact ⟨hfree, fun h => absurd (s.stamps_names_subset u nowMs h) (by decide)⟩
  obtain ⟨hkey, hothers⟩ := signed_of_unsigned hunsigned
  have htext := textPairs_handshakeUrl hu hurl
  refine ⟨url, _, hurl, ?_, htext ▸ hkey, ?_, fun w hw => pairs_of_parse_handshakeUrl hurl hw⟩
  · rw [htext, signature_of_unsigned hunsigned]
  · rw [htext, hothers, handshakeCall]

/-- names that come up twice, are empty or hold a sign -/
theorem handshakes_verify_repeated :
    let s : Session := ⟨"777", "imei", "", "agent", "vi", 30, 665, .empty, ⟨0, [], [], []⟩, [], false⟩
    let pairs := [("b", "é"), ("", ""), ("b", " "), ("a&", "1"), ("zpw_type", ""), ("t", "1700000000000"),
      ("zpw_ver", "665")]
    ∃ url key, s.handshakeUrl "wss://a.example.test/ws?b=%C3%A9&=&b=+&a%26=1&zpw_type" 1700000000000 = .ok url ∧
      textPairs url = pairs ++ [("signkey", key)] ∧ key = Signature.sign "listen" pairs := by
  intro s pairs
  let withQuery (query : String) : Url :=
    ⟨"wss", some ⟨"", "", .domain "a.example.test", none⟩, .segments ["ws"], some query, none⟩
  let u := withQuery "b=%C3%A9&=&b=+&a%26=1&zpw_type"
  have hu : Url.parse "wss://a.example.test/ws?b=%C3%A9&=&b=+&a%26=1&zpw_type" = .ok u := by decide +kernel
  have hv : Url.parse (s.stamped u 1700000000000).render =
      .ok (withQuery "b=%C3%A9&=&b=+&a%26=1&zpw_type&t=1700000000000&zpw_ver=665") := by decide +kernel
  have hpairs : u.pairs ++ s.stamps u 1700000000000 = pairs := by decide +kernel
  obtain ⟨url, key, hurl, htext, -, hkey, -⟩ := handshakes_verify s 1700000000000 hu hv (by decide +kernel)
  rw [hpairs] at htext
  refine ⟨url, key, hurl, htext, ?_⟩
  have hothers : pairs.filter (fun p => p.1 ≠ "signkey") = pairs := by decide +kernel
  rw [hkey, htext, List.filter_append, hothers, List.filter_cons_of_neg (by simp), List.filter_nil, List.append_nil]

/-! The time. -/

/-- The times in the text are those of the endpoint, or else the stamp. -/
theorem times_handshakeUrl {s : Session} {endpoint : String} {u : Url} (hu : Url.parse endpoint = .ok u)
    {nowMs : Int} {url : String} (h : s.handshakeUrl endpoint nowMs = .ok url) :
    valuesOf "t" (textPairs url) = if valuesOf "t" u.pairs = [] then [toString nowMs] else valuesOf "t" u.pairs := by
  rw [textPairs_handshakeUrl hu h, valuesOf_append, valuesOf_append, times_stamps, times_signature, List.append_nil]
  split_ifs with hnone
  · rw [hnone, List.nil_append]
  · exact List.append_nil _

/-- A handshake is stamped with its time, and so differs from all others, if its endpoint has no time. The URL of an
endpoint that has one is the same at any time. -/
theorem handshakes_are_stamped (s : Session) {endpoint : String} {u v : Url} (nowMs : Int)
    (hu : Url.parse endpoint = .ok u) (hv : Url.parse (s.stamped u nowMs).render = .ok v) :
    ∃ url, s.handshakeUrl endpoint nowMs = .ok url ∧
      (valuesOf "t" u.pairs = [] →
        valuesOf "t" (textPairs url) = [toString nowMs] ∧ url ≠ endpoint ∧
        ∀ later url', s.handshakeUrl endpoint later = .ok url' → later ≠ nowMs →
          valuesOf "t" (textPairs url') ≠ valuesOf "t" (textPairs url)) ∧
      (valuesOf "t" u.pairs ≠ [] →
        valuesOf "t" (textPairs url) = valuesOf "t" u.pairs ∧
        ∀ later, s.handshakeUrl endpoint later = .ok url) := by
  have hurl := (s.handshakeUrl_eq_ok_iff ..).2 ⟨u, v, hu, hv, rfl⟩
  refine ⟨_, hurl, fun hnone => ?_, fun hsome => ?_⟩
  · have htimes {later : Int} {url : String} (h : s.handshakeUrl endpoint later = .ok url) :
        valuesOf "t" (textPairs url) = [toString later] := by
      rw [times_handshakeUrl hu h, if_pos hnone]
    refine ⟨htimes hurl, fun heq => ?_, fun later url' hurl' hne heq => ?_⟩
    · -- read again, the endpoint would have a time
      have hpairs := pairs_of_parse_handshakeUrl hurl (heq ▸ hu)
      rw [hpairs, htimes hurl] at hnone
      cases hnone
    · rw [htimes hurl', htimes hurl] at heq
      exact hne (Decimal.int_toString_injective (List.cons.inj heq).1)
  · refine ⟨by rw [times_handshakeUrl hu hurl, if_neg hsome], fun later => ?_⟩
    have hsame : s.stamped u later = s.stamped u nowMs := by
      rw [stamped, stamps_of_timed hsome, stamped, stamps_of_timed hsome]
    exact (s.handshakeUrl_eq_ok_iff ..).2 ⟨u, v, hu, hsame ▸ hv, rfl⟩

/-- what looks like a time, but for its name or its place -/
theorem handshakes_are_stamped_fresh :
    let s : Session := ⟨"777", "imei", "", "agent", "vi", 30, 665, .empty, ⟨0, [], [], []⟩, [], false⟩
    ∃ url, s.handshakeUrl "wss://a.example.test/ws?T=5#?t=6" 1700000000000 = .ok url ∧
      valuesOf "t" (textPairs url) = ["1700000000000"] ∧ url ≠ "wss://a.example.test/ws?T=5#?t=6" := by
  intro s
  let withQuery (query : String) : Url :=
    ⟨"wss", some ⟨"", "", .domain "a.example.test", none⟩, .segments ["ws"], some query, some "?t=6"⟩
  have hu : Url.parse "wss://a.example.test/ws?T=5#?t=6" = .ok (withQuery "T=5") := by decide +kernel
  have hv : Url.parse (s.stamped (withQuery "T=5") 1700000000000).render =
      .ok (withQuery "T=5&t=1700000000000&zpw_ver=665&zpw_type=30") := by decide +kernel
  obtain ⟨url, hurl, hfresh, -⟩ := handshakes_are_stamped s 1700000000000 hu hv
  obtain ⟨htimes, hne, -⟩ := hfresh (by decide +kernel)
  refine ⟨url, hurl, ?_, hne⟩
  rw [htimes]
  decide +kernel

/-- The time of an endpoint stays, and the URL of a former handshake is taken as it is. -/
theorem handshakes_are_stamped_stale :
    let former := "wss://h/?t=5&zpw_ver=665&zpw_type=30&signkey=f001660d1980786426ef07e94b147dc7"
    let draft : SessionDraft := ⟨some "777", some "imei", some "secret", some "agent", none, 30, 665, [],
      ⟨0, [], [], []⟩, ["wss://h/?t=5", former], false⟩
    ∃ s url, build 0 draft = .ok s ∧ s.handshakeUrl "wss://h/?t=5" 1700000000000 = .ok url ∧
      valuesOf "t" (textPairs url) = ["5"] ∧ s.handshakeUrl former 1700000000000 = .ok former := by
  intro former draft
  let s : Session := ⟨"777", "imei", "secret", "agent", "vi", 30, 665, .empty, ⟨0, [], [], []⟩,
    ["wss://h/?t=5", former], false⟩
  let withQuery (query : String) : Url :=
    ⟨"wss", some ⟨"", "", .domain "h", none⟩, .segments [""], some query, none⟩
  have hu : Url.parse "wss://h/?t=5" = .ok (withQuery "t=5") := by decide +kernel
  have hv : Url.parse (s.stamped (withQuery "t=5") 1700000000000).render =
      .ok (withQuery "t=5&zpw_ver=665&zpw_type=30") := by decide +kernel
  have hurl := (s.handshakeUrl_eq_ok_iff ..).2 ⟨_, _, hu, hv, rfl⟩
  refine ⟨s, _, by decide +kernel, hurl, ?_, by decide +kernel⟩
  rw [times_handshakeUrl hu hurl]
  decide +kernel

end ChatWire.Session
