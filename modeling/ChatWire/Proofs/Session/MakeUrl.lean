import ChatWire.Proofs.Url.Reread
import ChatWire.Session.Handshake

/-! URLs of a session. The parameters that are missing come behind those of the base, and none is added twice. -/

namespace ChatWire.Session

/-- Of pairs with different names, just those are missing whose name is not there. -/
theorem missingPairs_of_nodup {pairs : List (String × String)} (h : (pairs.map Prod.fst).Nodup) (names : List String) :
    missingPairs names pairs = pairs.filter fun p => !names.contains p.1 := by
  induction pairs generalizing names with
  | nil => rfl
  | cons p r ih =>
    obtain ⟨k, v⟩ := p
    rw [List.map_cons, List.nodup_cons] at h
    rw [missingPairs]
    split_ifs with hk
    · rw [List.filter_cons_of_neg (by simpa using hk), ih h.2]
    · have hlater : ∀ p ∈ r, (!(k :: names).contains p.1) = !names.contains p.1 := by
        intro p hp
        have hne : p.1 ≠ k := by
          rintro rfl
          exact h.1 (List.mem_map.2 ⟨p, hp, rfl⟩)
        rw [List.contains_cons, beq_false_of_ne hne, Bool.false_or]
      rw [List.filter_cons_of_pos (by simpa using hk), ih h.2, List.filter_congr hlater]

theorem missingPairs_sublist (names : List String) (pairs : List (String × String)) :
    (missingPairs names pairs).Sublist pairs := by
  induction pairs generalizing names with
  | nil => exact .slnil
  | cons p r ih =>
    rw [missingPairs]
    split_ifs
    · exact (ih _).cons _
    · exact (ih _).cons_cons _

/-- In which order the names are listed, and how often, makes no difference. -/
theorem missingPairs_congr {names names' : List String} (h : ∀ k, k ∈ names ↔ k ∈ names')
    (pairs : List (String × String)) : missingPairs names pairs = missingPairs names' pairs := by
  induction pairs generalizing names names' with
  | nil => rfl
  | cons p r ih =>
    obtain ⟨k, v⟩ := p
    have hk : names.contains k = names'.contains k := by simp only [List.contains_eq_mem, h]
    have hmore : ∀ j, j ∈ k :: names ↔ j ∈ k :: names' := fun j => by rw [List.mem_cons, List.mem_cons, h]
    rw [missingPairs, missingPairs, hk, ih h, ih hmore]

/-- What is missing of the later pairs is what neither was there nor is among the earlier ones. -/
theorem missingPairs_append (names : List String) (a b : List (String × String)) :
    missingPairs names (a ++ b) = missingPairs names a ++ missingPairs (names ++ a.map Prod.fst) b := by
  induction a generalizing names with
  | nil => rw [List.nil_append, List.map_nil, List.append_nil, missingPairs, List.nil_append]
  | cons p r ih =>
    obtain ⟨k, v⟩ := p
    rw [List.cons_append, missingPairs, missingPairs]
    split_ifs with hk
    · rw [ih]
      refine congrArg _ (missingPairs_congr (fun j => ?_) b)
      have hkn : k ∈ names := by simpa using hk
      simp only [List.map_cons, List.mem_append, List.mem_cons]
      exact ⟨fun hj => hj.imp_right .inr, fun hj => hj.elim .inl (·.elim (fun heq => .inl (heq ▸ hkn)) .inr)⟩
    · rw [ih, List.cons_append]
      refine congrArg _ (congrArg _ (missingPairs_congr (fun j => ?_) b))
      simp only [List.map_cons, List.mem_append, List.mem_cons]
      tauto

theorem missingPairs_eq_nil {names : List String} {pairs : List (String × String)} (h : ∀ p ∈ pairs, p.1 ∈ names) :
    missingPairs names pairs = [] := by
  induction pairs with
  | nil => rfl
  | cons p r ih =>
    rw [missingPairs, if_pos (by simpa using h p (List.mem_cons_self ..))]
    exact ih fun q hq => h q (List.mem_cons_of_mem _ hq)

/-- Those of the pairs, in their order, whose name neither is among `names` nor comes up before. -/
def additions (names : List String) (pairs : List (String × String)) : List (String × String) :=
  (pairs.zipIdx.filter fun (p, i) => p.1 ∉ names ∧ p.1 ∉ (pairs.take i).map Prod.fst).map Prod.fst

theorem additions_concat (names : List String) (pairs : List (String × String)) (p : String × String) :
    additions names (pairs ++ [p]) =
      additions names pairs ++ if p.1 ∈ names ++ pairs.map Prod.fst then [] else [p] := by
  have hearlier : ∀ q ∈ pairs.zipIdx, (pairs ++ [p]).take q.2 = pairs.take q.2 := fun q hq =>
    List.take_append_of_le_length (List.snd_lt_of_mem_zipIdx hq).le
  rw [additions, List.zipIdx_append, List.filter_append, List.map_append]
  congr 1
  · rw [additions]
    refine congrArg _ (List.filter_congr fun q hq => ?_)
    simp only [hearlier q hq]
  · have hlast : (pairs ++ [p]).take pairs.length = pairs := List.take_left
    simp only [List.zipIdx_singleton, Nat.zero_add, List.mem_append, ← not_or]
    by_cases hthere : p.1 ∈ names ∨ p.1 ∈ pairs.map Prod.fst
    · rw [if_pos hthere, List.filter_cons_of_neg (by simpa only [hlast, decide_eq_true_eq, not_not])]
      rfl
    · rw [if_neg hthere, List.filter_cons_of_pos (by simpa only [hlast, decide_eq_true_eq])]
      rfl

/-- What is missing, told without the names that pile up. -/
theorem missingPairs_eq_additions (names : List String) (pairs : List (String × String)) :
    missingPairs names pairs = additions names pairs := by
  induction pairs using List.reverseRecOn with
  | nil => rfl
  | append_singleton r p ih =>
    rw [missingPairs_append, additions_concat, ih]
    simp only [missingPairs, List.contains_eq_mem, decide_eq_true_eq]

/-- What is not there is added. -/
theorem mem_missingPairs {pairs : List (String × String)} {p : String × String} (hp : p ∈ pairs) (names : List String) :
    p.1 ∈ names ++ (missingPairs names pairs).map Prod.fst := by
  induction pairs generalizing names with
  | nil => cases hp
  | cons q r ih =>
    obtain ⟨k, v⟩ := q
    rw [missingPairs]
    split_ifs with hk
    · rcases List.mem_cons.1 hp with rfl | hp
      · exact List.mem_append_left _ (by simpa using hk)
      · exact ih hp names
    · rcases List.mem_cons.1 hp with rfl | hp
      · exact List.mem_append_right _ (List.mem_cons_self ..)
      · have := ih hp (k :: names)
        simp only [List.cons_append, List.mem_cons, List.mem_append, List.map_cons] at this ⊢
        tauto

/-- A base that can be read gets what is missing. -/
theorem makeUrl_eq (s : Session) {base : String} {u : Url} (hu : Url.parse base = .ok u)
    (params : List (String × String)) (withVersion : Bool) :
    s.makeUrl base params withVersion = .ok (u.append
      (missingPairs (u.pairs.map Prod.fst) (params ++ if withVersion then s.versionPairs else []))).render := by
  rw [makeUrl, parseUrl, hu]
  rfl

/-- What has been added is not missing any more. -/
theorem makeUrl_again (s : Session) {base : String} {u v : Url} (hu : Url.parse base = .ok u)
    (params : List (String × String)) (withVersion : Bool) {url : String}
    (hurl : s.makeUrl base params withVersion = .ok url) (hv : Url.parse url = .ok v) :
    s.makeUrl url params withVersion = .ok v.render := by
  rw [s.makeUrl_eq hu] at hurl
  cases hurl
  have hthere : ∀ p ∈ params ++ (if withVersion then s.versionPairs else []), p.1 ∈ v.pairs.map Prod.fst := by
    intro p hp
    rw [((Url.proper_of_parse hu).append _).pairs_of_parse hv, Url.pairs_append, List.map_append]
    exact mem_missingPairs hp _
  rw [s.makeUrl_eq hv, missingPairs_eq_nil hthere]
  rfl

theorem nodup_versionPairs (s : Session) : (s.versionPairs.map Prod.fst).Nodup := by
  have hnames : s.versionPairs.map Prod.fst = ["zpw_ver", "zpw_type"] := rfl
  rw [hnames]
  decide

/-- The parameters come first, and the version behind them. -/
theorem missingPairs_wanted (s : Session) (names : List String) (params : List (String × String)) (withVersion : Bool) :
    missingPairs names (params ++ if withVersion then s.versionPairs else []) = additions names params ++
      if withVersion then s.versionPairs.filter fun p => p.1 ∉ names ++ params.map Prod.fst else [] := by
  rw [missingPairs_append, missingPairs_eq_additions]
  refine congrArg _ ?_
  split
  · rw [missingPairs_of_nodup s.nodup_versionPairs]
    simp only [List.contains_eq_mem, decide_not]
  · rfl

/-- A URL gets those of the parameters that it has not, behind its own, and the rest of it stays. Once it has them all it
gets no more. -/
theorem urls_get_what_is_missing (s : Session) {base : String} {u : Url} (hu : Url.parse base = .ok u)
    (params : List (String × String)) (withVersion : Bool) :
    ∃ w : Url, s.makeUrl base params withVersion = .ok w.render ∧
      w.scheme = u.scheme ∧ w.site = u.site ∧ w.path = u.path ∧ w.fragment = u.fragment ∧
      Form.decodePairs (Url.queryText w.render) = u.pairs ++ additions (u.pairs.map Prod.fst) params ++
        (if withVersion then s.versionPairs.filter fun p => p.1 ∉ (u.pairs ++ params).map Prod.fst else []) ∧
      ∀ v, Url.parse w.render = .ok v → v.render = w.render →
        s.makeUrl w.render params withVersion = .ok w.render := by
  have hurl := s.makeUrl_eq hu params withVersion
  obtain ⟨q, hq⟩ := u.exists_append
    (missingPairs (u.pairs.map Prod.fst) (params ++ if withVersion then s.versionPairs else []))
  refine ⟨_, hurl, ?_, ?_, ?_, ?_, ?_, ?_⟩
  · rw [hq]
  · rw [hq]
  · rw [hq]
  · rw [hq]
  · rw [(Url.tidy_of_parse hu).pairs_of_text, missingPairs_wanted, List.map_append, List.append_assoc]
  · intro v hv hsame
    rw [s.makeUrl_again hu params withVersion hurl hv, hsame]

/-- names that are there in another notation, and one that is given twice -/
theorem urls_get_what_is_missing_escaped :
    let s : Session := ⟨"777", "imei", "", "agent", "vi", 30, 665, .empty, ⟨0, [], [], []⟩, [], false⟩
    let params := [("d&é", "+"), ("a", "9"), ("b c", "0"), ("d&é", "1"), ("zpw_type", "")]
    let url := "https://a.example.test/p?a=1&b%20c=2&a=&d%26%C3%A9=%2B&zpw_type=&zpw_ver=665#f"
    s.makeUrl "https://a.example.test/p?a=1&b%20c=2&a=#f" params true = .ok url ∧
      Form.decodePairs (Url.queryText url) =
        [("a", "1"), ("b c", "2"), ("a", ""), ("d&é", "+"), ("zpw_type", ""), ("zpw_ver", "665")] ∧
      s.makeUrl url params true = .ok url := by
  intro s params url
  have hu : Url.parse "https://a.example.test/p?a=1&b%20c=2&a=#f" =
      .ok ⟨"https", some ⟨"", "", .domain "a.example.test", none⟩, .segments ["p"], some "a=1&b%20c=2&a=", some "f"⟩ := by
    decide +kernel
  have hv : Url.parse url = .ok ⟨"https", some ⟨"", "", .domain "a.example.test", none⟩, .segments ["p"],
      some "a=1&b%20c=2&a=&d%26%C3%A9=%2B&zpw_type=&zpw_ver=665", some "f"⟩ := by
    decide +kernel
  have hurl : s.makeUrl "https://a.example.test/p?a=1&b%20c=2&a=#f" params true = .ok url := by decide +kernel
  obtain ⟨w, hw, -, -, -, -, hpairs, hagain⟩ := urls_get_what_is_missing s hu params true
  have hrender : w.render = url := Except.ok.inj (hw.symm.trans hurl)
  rw [hrender] at hpairs hagain
  refine ⟨hurl, ?_, hagain _ hv (by decide +kernel)⟩
  rw [hpairs]
  decide +kernel

end ChatWire.Session
