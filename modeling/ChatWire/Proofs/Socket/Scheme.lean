import ChatWire.Config.Basic
import ChatWire.Proofs.Session.Build
import ChatWire.Proofs.Url.Special
import ChatWire.Socket.Scheme

/-! Socket URLs of web URLs. The two replacements look for their texts anywhere, so that the second one is on what stands
behind the scheme; a URL with no other URL in it changes its scheme only. -/

namespace ChatWire.Scheme

/-! The first occurrence of a text. -/

variable {old new : List Char}

theorem replaceFirst_append (old new r : List Char) : replaceFirst old new (old ++ r) = new ++ r := by
  cases old with
  | nil => cases r <;> simp [replaceFirst]
  | cons c old =>
    have hbegins : (c :: old).isPrefixOf (c :: (old ++ r)) :=
      List.isPrefixOf_iff_prefix.2 (List.prefix_append (c :: old) r)
    rw [List.cons_append, replaceFirst, if_pos hbegins, ← List.cons_append, List.drop_left]

/-- Where it cannot begin, nothing is replaced. -/
theorem replaceFirst_skip {c : Char} (hc : c ∈ old.head?) {front : List Char} (h : c ∉ front) (r : List Char) :
    replaceFirst old new (front ++ r) = front ++ replaceFirst old new r := by
  induction front with
  | nil => rfl
  | cons d front ih =>
    rw [List.mem_cons, not_or] at h
    have hno : ¬ old.isPrefixOf (d :: (front ++ r)) := by
      rw [List.isPrefixOf_iff_prefix]
      intro hbegins
      obtain ⟨old, rfl⟩ := List.head?_eq_some_iff.1 hc
      exact h.1 (List.cons_prefix_cons.1 hbegins).1
    rw [List.cons_append, replaceFirst, if_neg hno, ih h.2, List.cons_append]

/-- A text that comes up is replaced in one place. -/
theorem replaceFirst_cases (old new s : List Char) :
    ¬ old <:+: s ∧ replaceFirst old new s = s ∨
      ∃ p q, s = p ++ (old ++ q) ∧ replaceFirst old new s = p ++ (new ++ q) := by
  induction s with
  | nil =>
    cases old with
    | nil => exact .inr ⟨[], [], rfl, by simp [replaceFirst]⟩
    | cons c old => exact .inl ⟨by simp, rfl⟩
  | cons c s ih =>
    rw [replaceFirst, List.infix_cons_iff, ← List.isPrefixOf_iff_prefix]
    split_ifs with hbegins
    · obtain ⟨q, hq⟩ := List.isPrefixOf_iff_prefix.1 hbegins
      refine .inr ⟨[], q, hq.symm, ?_⟩
      rw [← hq, List.drop_left, List.nil_append]
    · rcases ih with ⟨hnone, hsame⟩ | ⟨p, q, rfl, hreplaced⟩
      · exact .inl ⟨not_or.2 ⟨hbegins, hnone⟩, congrArg _ hsame⟩
      · exact .inr ⟨c :: p, q, rfl, congrArg _ hreplaced⟩

theorem replaceFirst_eq_self_iff (hne : new ≠ old) {s : List Char} :
    replaceFirst old new s = s ↔ ¬ old <:+: s := by
  rcases replaceFirst_cases old new s with ⟨hnone, hsame⟩ | ⟨p, q, rfl, hreplaced⟩
  · exact iff_of_true hsame hnone
  · refine iff_of_false (fun heq => hne ?_) (not_not_intro ⟨p, q, List.append_assoc ..⟩)
    exact List.append_cancel_right (List.append_cancel_left (hreplaced.symm.trans heq))

/-! Schemes. -/

theorem toSocketChars_https (r : List Char) :
    toSocketChars ("https://".toList ++ r) = "wss://".toList ++ replaceFirst "http://".toList "ws://".toList r := by
  have hweb : isSocket ("https://".toList ++ r) = false := by rfl
  rw [toSocketChars, hweb, if_neg Bool.false_ne_true, replaceFirst_append, replaceFirst_skip (by rfl) (by decide)]

theorem toSocketChars_http (r : List Char) :
    toSocketChars ("http://".toList ++ r) = "ws://".toList ++ replaceFirst "https://".toList "wss://".toList r := by
  have hweb : isSocket ("http://".toList ++ r) = false := by rfl
  have hlonger : replaceFirst "https://".toList "wss://".toList ("http://".toList ++ r) =
      "http://".toList ++ replaceFirst "https://".toList "wss://".toList r := by rfl
  rw [toSocketChars, hweb, if_neg Bool.false_ne_true, hlonger, replaceFirst_append]

/-- A web scheme, that of the socket it becomes, and the other web scheme. -/
inductive Swaps : String → String → String → Prop
  | secure : Swaps "https" "wss" "http"
  | plain : Swaps "http" "ws" "https"

namespace Swaps

variable {web socket other : String}

/-- Behind the scheme the other one is looked for. -/
theorem exists_toSocket (h : Swaps web socket other) : ∃ instead, instead ≠ (other ++ "://").toList ∧
    ∀ r : List Char, toSocket (String.ofList ((web ++ "://").toList ++ r)) =
      String.ofList ((socket ++ "://").toList ++ replaceFirst (other ++ "://").toList instead r) := by
  cases h with
  | secure =>
    refine ⟨"ws://".toList, by decide, fun r => ?_⟩
    rw [toSocket, String.toList_ofList]
    exact congrArg _ (toSocketChars_https r)
  | plain =>
    refine ⟨"wss://".toList, by decide, fun r => ?_⟩
    rw [toSocket, String.toList_ofList]
    exact congrArg _ (toSocketChars_http r)

/-- A socket URL is left as it is. -/
theorem toSocket_socket (h : Swaps web socket other) (r : List Char) :
    toSocket (String.ofList ((socket ++ "://").toList ++ r)) = String.ofList ((socket ++ "://").toList ++ r) := by
  have hsocket : isSocket ((socket ++ "://").toList ++ r) := by cases h <;> rfl
  rw [toSocket, String.toList_ofList, toSocketChars, if_pos hsocket]

/-- Both schemes have the same rules. -/
theorem parse_eq (h : Swaps web socket other) (r : String) :
    Url.parse (socket ++ "://" ++ r) = (Url.parse (web ++ "://" ++ r)).map fun u => { u with scheme := socket } := by
  cases h with
  | secure => exact Url.parse_exchange (by decide) (by decide) (by decide) r
  | plain => exact Url.parse_exchange (by decide) (by decide) (by decide) r

end Swaps

theorem append_eq_ofList (scheme r : String) :
    scheme ++ "://" ++ r = String.ofList ((scheme ++ "://").toList ++ r.toList) := by
  rw [← String.toList_append, String.ofList_toList]

/-- A web URL becomes the socket URL of the same host, path and query if the other web scheme does not come up in it
again, and so does an endpoint of a configuration. A socket URL is left as it is, and so is what has become one. -/
theorem endpoints_become_socket_urls {web socket other : String} (h : Swaps web socket other) (r : String) :
    toSocket (socket ++ "://" ++ r) = socket ++ "://" ++ r ∧
    (toSocket (web ++ "://" ++ r) = socket ++ "://" ++ r ↔ ¬ (other ++ "://").toList <:+: r.toList) ∧
    toSocket (toSocket (web ++ "://" ++ r)) = toSocket (web ++ "://" ++ r) ∧
    ∀ (now : Int) (c : Config) (s : Session) (i : Nat), c.session now = .ok s →
      c.endpoints[i]? = some (web ++ "://" ++ r) →
        s.endpoints[i]? = some (toSocket (web ++ "://" ++ r)) ∧
        (¬ (other ++ "://").toList <:+: r.toList →
          ∃ u, Url.parse (web ++ "://" ++ r) = .ok u ∧
            Url.parse (toSocket (web ++ "://" ++ r)) = .ok { u with scheme := socket }) := by
  obtain ⟨instead, hne, hbecomes⟩ := h.exists_toSocket
  have hsame : toSocket (web ++ "://" ++ r) = socket ++ "://" ++ r ↔ ¬ (other ++ "://").toList <:+: r.toList := by
    rw [append_eq_ofList web, append_eq_ofList socket, hbecomes, String.ofList_inj, List.append_cancel_left_eq,
      replaceFirst_eq_self_iff hne]
  refine ⟨?_, hsame, ?_, ?_⟩
  · rw [append_eq_ofList]
    exact h.toSocket_socket _
  · rw [append_eq_ofList web, hbecomes]
    exact h.toSocket_socket _
  · intro now c s i hs hi
    have hbuild := mapError_eq_ok_iff.1 hs
    have hendpoint : s.endpoints[i]? = some (toSocket (web ++ "://" ++ r)) := by
      rw [Session.endpoints_of_build hbuild, Config.draft, List.getElem?_map, hi, Option.map_some]
    refine ⟨hendpoint, fun hnone => ?_⟩
    rw [Session.endpoints_of_build hbuild] at hendpoint
    obtain ⟨v, hv⟩ := (Session.isComplete_of_build hbuild).endpoints _ (List.mem_of_getElem? hendpoint)
    rw [hsame.2 hnone] at hv ⊢
    rw [h.parse_eq] at hv ⊢
    cases hu : Url.parse (web ++ "://" ++ r) with
    | error e =>
      rw [hu] at hv
      cases hv
    | ok u => exact ⟨u, rfl, rfl⟩

theorem endpoints_become_socket_urls_plain :
    let c : Config := { Config.empty with
      uid := "777", imei := "imei", secretKey := "secret", userAgent := "agent", apiType := 30, apiVersion := 665
      endpoints := ["wss://a.example.test/ws", "http://b.example.test/ws?u=http://c"] }
    ∃ s u, c.session 0 = .ok s ∧ s.endpoints[1]? = some "ws://b.example.test/ws?u=http://c" ∧
      Url.parse "http://b.example.test/ws?u=http://c" = .ok u ∧
      Url.parse "ws://b.example.test/ws?u=http://c" = .ok { u with scheme := "ws" } := by
  intro c
  obtain ⟨-, hsame, -, hconfig⟩ := endpoints_become_socket_urls .plain "b.example.test/ws?u=http://c"
  have hnone : ¬ ("https" ++ "://").toList <:+: "b.example.test/ws?u=http://c".toList := by decide
  obtain ⟨s, hs⟩ : ∃ s, c.session 0 = .ok s := by
    obtain ⟨s, hs⟩ := (Session.exists_build_iff 0 c.draft).2 (SessionDraft.faults_eq_nil.1 (by decide +kernel))
    exact ⟨s, mapError_eq_ok_iff.2 hs⟩
  obtain ⟨hendpoint, hparse⟩ := hconfig 0 c s 1 hs rfl
  obtain ⟨u, hu, hsocket⟩ := hparse hnone
  rw [hsame.2 hnone] at hendpoint hsocket
  exact ⟨s, u, hs, hendpoint, hu, hsocket⟩

/-- a URL in the query of a URL -/
theorem endpoints_become_socket_urls_nested :
    toSocket "https://a.example.test/ws?u=http://b" = "wss://a.example.test/ws?u=ws://b" ∧
      toSocket "http://a.example.test/ws?u=https://b" = "ws://a.example.test/ws?u=wss://b" := by
  decide +kernel

end ChatWire.Scheme
