import ChatWire.Config.Basic
import ChatWire.Proofs.Retry.Settings

/-! A configuration that is saved and loaded again. It comes back as it was, but for its secret key, of which nothing is
written. -/

namespace ChatWire

open scoped List
open Json (fieldsIntegral fieldsIntegral_iff itemsIntegral_iff isIntegral_nat)
open Json.Reading (Takes Entry)

namespace Config

/-- Whether there is such a configuration: its numbers fit. -/
structure Fit (c : Config) : Prop where
  apiType : c.apiType < UInt32.size
  apiVersion : c.apiVersion < UInt32.size
  socket : c.socket.Fit

def withoutSecret (c : Config) : Config := { c with secretKey := "" }

/-- what is written of a configuration whose rules are written in the order of `table` -/
def entries (c : Config) (table : List (Nat × RetryRule)) : List (Entry Config) :=
  [⟨"uid", .str c.uid, fun k => { k with uid := c.uid }⟩, ⟨"imei", .str c.imei, fun k => { k with imei := c.imei }⟩,
    ⟨"user_agent", .str c.userAgent, fun k => { k with userAgent := c.userAgent }⟩] ++
  (c.language.toList.map fun l => ⟨"language", .str l, fun k => { k with language := some l }⟩) ++
  [⟨"cookies", .strings c.cookies, fun k => { k with cookies := c.cookies }⟩,
    ⟨"api_type", .nat c.apiType, fun k => { k with apiType := c.apiType }⟩,
    ⟨"api_version", .nat c.apiVersion, fun k => { k with apiVersion := c.apiVersion }⟩,
    ⟨"endpoints", .strings c.endpoints, fun k => { k with endpoints := c.endpoints }⟩,
    ⟨"self_listen", .bool c.selfListen, fun k => { k with selfListen := c.selfListen }⟩,
    ⟨"socket", c.socket.toJsonAs table, fun k => { k with socket := c.socket }⟩]

/-- the configuration written with its rules in the order of `table` -/
def toJsonAs (c : Config) (table : List (Nat × RetryRule)) : Json := .obj ((c.entries table).map Entry.field)

theorem toJson_withoutSecret (c : Config) : c.withoutSecret.toJson = c.toJson := rfl

theorem toJsonAs_withoutSecret (c : Config) (table : List (Nat × RetryRule)) :
    c.withoutSecret.toJsonAs table = c.toJsonAs table := rfl

variable {c : Config} {table : List (Nat × RetryRule)}

theorem exists_toJson_eq (h : c.Fit) : ∃ table, table ~ c.socket.retries ∧ c.toJson = c.toJsonAs table := by
  obtain ⟨table, htable, hsocket⟩ := Settings.exists_toJson_eq h.socket.inOrder
  refine ⟨table, htable, ?_⟩
  rw [toJson, hsocket, toJsonAs, entries]
  simp only [List.map_append, List.map_map]
  rfl

theorem nodup_names : ((c.entries table).map Entry.name).Nodup := by
  cases hlanguage : c.language <;> simp [entries, hlanguage]

theorem foldl_entries (c : Config) (table : List (Nat × RetryRule)) :
    (c.entries table).foldl (fun s p => p.set s) empty = c.withoutSecret := by
  obtain ⟨_, _, _, _, language, _, _, _, _, _, _⟩ := c
  cases language <;> rfl

theorem takes_toJsonAs (h : c.Fit) (htable : table ~ c.socket.retries) :
    Takes reading 5 (c.toJsonAs table) c.withoutSecret := by
  have hstring (s : String) := (Takes.string s).mono (Nat.zero_le 4)
  have hlanguage (s : String) := (Takes.optional_string s).mono (Nat.zero_le 4)
  have hstrings (l : List String) : Takes (Json.Reading.list Json.Reading.string) 4 (.strings l) l :=
    (Takes.list fun s _ => Takes.string s).mono (by decide)
  have hnat {n : Nat} (hn : n < UInt32.size) := (Takes.natural (Nat.le_pred_of_lt hn)).mono (Nat.zero_le 4)
  have hbool := (Takes.bool c.selfListen).mono (Nat.zero_le 4)
  have hsocket := Settings.takes_toJsonAs h.socket htable
  rw [← foldl_entries c table]
  refine Takes.record (c.entries table) ?_ nodup_names (by simp [Entry.Complete, Json.Reading.field]) empty
  simp only [entries, List.forall_mem_append, List.forall_mem_cons, List.forall_mem_map]
  refine ⟨⟨?_, fun l _ => ⟨_, rfl, (hlanguage l).map _⟩⟩, ?_⟩
  · exact ⟨⟨_, rfl, (hstring _).map _⟩, ⟨_, rfl, (hstring _).map _⟩, ⟨_, rfl, (hstring _).map _⟩,
      List.forall_mem_nil _⟩
  · exact ⟨⟨_, rfl, (hstrings _).map _⟩, ⟨_, rfl, (hnat h.apiType).map _⟩, ⟨_, rfl, (hnat h.apiVersion).map _⟩,
      ⟨_, rfl, (hstrings _).map _⟩, ⟨_, rfl, hbool.map _⟩, ⟨_, rfl, hsocket.map _⟩, List.forall_mem_nil _⟩

theorem isIntegral_toJsonAs (h : c.Fit) (htable : table ~ c.socket.retries) : (c.toJsonAs table).isIntegral := by
  have hstrings (l : List String) : (Json.strings l).isIntegral :=
    itemsIntegral_iff.2 (List.forall_mem_map.2 fun _ _ => rfl)
  have hnat {n : Nat} (hn : n < UInt32.size) := isIntegral_nat (hn.trans (by decide))
  have hsocket := Settings.isIntegral_toJsonAs h.socket htable
  refine fieldsIntegral_iff.2 (List.forall_mem_map.2 ?_)
  simp only [entries, List.forall_mem_append, List.forall_mem_cons, List.forall_mem_map]
  exact ⟨⟨⟨rfl, rfl, rfl, List.forall_mem_nil _⟩, fun _ _ => rfl⟩, hstrings _, hnat h.apiType, hnat h.apiVersion,
    hstrings _, rfl, hsocket, List.forall_mem_nil _⟩

theorem ofJson_toJson (h : c.Fit) : reading.ofJson c.toJson = .ok c.withoutSecret := by
  obtain ⟨table, htable, hjson⟩ := exists_toJson_eq h
  rw [hjson]
  exact (takes_toJsonAs h htable).ofJson

/-- The file is read as what is in it. -/
theorem parse_render (h : c.Fit) (htable : table ~ c.socket.retries) :
    parse (some (Text.toBytes (c.toJsonAs table).render)) = .ok c.withoutSecret := by
  have hread := (takes_toJsonAs h htable).parse_render (by decide) (isIntegral_toJsonAs h htable)
  rw [parse]
  simp only [Text.ofBytes?_toBytes, Json.Reading.parseText, hread]
  rfl

/-- What is saved of a configuration, with its rules in any order, is loaded as the same configuration without its
secret key, and says nothing about the secret key, but tells apart configurations that differ in anything else. In a
rule a lone delay is the list of it. -/
theorem saving_keeps_all_but_the_secret :
    (∀ c : Config, c.Fit → reading.ofJson c.toJson = .ok c.withoutSecret ∧
      parse (some (Text.toBytes c.toJson.render)) = .ok c.withoutSecret ∧
      ∀ table, table ~ c.socket.retries →
        parse (some (Text.toBytes (c.toJsonAs table).render)) = .ok c.withoutSecret) ∧
    (∀ c d : Config, c.withoutSecret = d.withoutSecret →
      c.toJson = d.toJson ∧ ∀ table, c.toJsonAs table = d.toJsonAs table) ∧
    (∀ c d : Config, c.Fit → d.Fit → c.toJson = d.toJson → c.withoutSecret = d.withoutSecret) ∧
    ∀ n, n < UInt64.size →
      (∀ max, max < UInt32.size →
        RetryRule.reading.ofJson (.obj [("max", .nat max), ("times", .nat n)]) = .ok ⟨max, [n]⟩) ∧
      ∀ before after : Fields,
        let lone : Json := .obj (before ++ ("times", .nat n) :: after)
        let listed : Json := .obj (before ++ ("times", .arr [.nat n]) :: after)
        RetryRule.reading.ofJson lone = RetryRule.reading.ofJson listed ∧
          (fieldsIntegral before → fieldsIntegral after →
            RetryRule.reading.parseText lone.render = RetryRule.reading.parseText listed.render) := by
  refine ⟨fun c hc => ⟨ofJson_toJson hc, ?_, fun _ => parse_render hc⟩, ?_, ?_, ?_⟩
  · obtain ⟨table, htable, hjson⟩ := exists_toJson_eq hc
    rw [hjson]
    exact parse_render hc htable
  · intro c d h
    refine ⟨?_, fun table => ?_⟩
    · rw [← toJson_withoutSecret c, h, toJson_withoutSecret]
    · rw [← toJsonAs_withoutSecret c, h, toJsonAs_withoutSecret]
  · intro c d hc hd h
    have hread := ofJson_toJson hc
    rw [h, ofJson_toJson hd] at hread
    exact (Except.ok.inj hread).symm
  · intro n hn
    refine ⟨fun max hmax => RetryRule.ofJson_lone hmax hn, fun before after => ?_⟩
    exact ⟨RetryRule.ofJson_lone_eq hn before after, RetryRule.parseText_lone_eq hn⟩

/-- a secret key, texts to be escaped, rules with no delay and with the longest, and no language -/
theorem saving_keeps_all_but_the_secret_mixed :
    let socket : Settings := ⟨180000, [(999, ⟨4294967295, []⟩), (1006, ⟨5, [1000, 18446744073709551615]⟩)], [1006], []⟩
    let c : Config := ⟨"1\"2\n", "é", "key", "", none, ["a=b; Path=/"], 30, 665, ["wss://a.example.test"], true, socket⟩
    parse (some (Text.toBytes c.toJson.render)) = .ok { c with secretKey := "" } ∧
      { c with secretKey := "another" }.toJson = c.toJson ∧
      RetryRule.reading.ofJson (.obj [("max", .nat 5), ("times", .nat 1000)]) = .ok ⟨5, [1000]⟩ := by
  intro socket c
  have hsocket : socket.Fit :=
    { pingInterval := by decide
      inOrder := by decide
      codes := by decide
      rules := by
        simp only [socket, List.forall_mem_cons]
        exact ⟨⟨by decide, List.forall_mem_nil _⟩, ⟨by decide, by decide⟩, List.forall_mem_nil _⟩
      rotateCodes := by decide
      retryCodes := List.forall_mem_nil _ }
  obtain ⟨hsaved, hsecret, -, hlone⟩ := saving_keeps_all_but_the_secret
  have hsame : { c with secretKey := "another" }.toJson = c.toJson := (hsecret _ _ rfl).1
  exact ⟨(hsaved c ⟨by decide, by decide, hsocket⟩).2.1, hsame, (hlone 1000 (by decide)).1 5 (by decide)⟩

end Config

end ChatWire
