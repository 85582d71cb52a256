import ChatWire.Proofs.Json.Written
import ChatWire.Proofs.Table
import ChatWire.Proofs.Text.Decimal
import ChatWire.Retry.Settings
import Mathlib.Data.List.Perm.Basic

/-! Settings that are written and read again. The table of rules may be written in any order of its codes, and a lone
delay is read as the list of it. -/

namespace ChatWire

open scoped List
open Json (Origin itemsOrdered itemsDepth fieldsIntegral fieldsIntegral_iff itemsIntegral_iff isIntegral_nat)
open Json.Reading (Takes Entry field required)

namespace RetryRule

/-- Whether there is such a rule: its numbers fit. -/
structure Fit (r : RetryRule) : Prop where
  max : r.max < UInt32.size
  times : ∀ t ∈ r.times, t < UInt64.size

theorem delay?_nat {n : Nat} (h : n < UInt64.size) : delays?.delay? (.nat n) = some n := by
  have hfits : (0 : Int) ≤ n ∧ (n : Int) < UInt64.size := ⟨Int.natCast_nonneg n, Int.ofNat_lt.2 h⟩
  rw [Json.nat, delays?.delay?, if_pos hfits, Int.toNat_natCast]

theorem delays?_nats {l : List Nat} (h : ∀ t ∈ l, t < UInt64.size) : delays? (.arr (l.map .nat)) = some l := by
  rw [delays?]
  induction l with
  | nil => rfl
  | cons t l ih =>
    obtain ⟨ht, hl⟩ := List.forall_mem_cons.1 h
    rw [List.map_cons, List.mapM_cons, delay?_nat ht, ih hl]
    rfl

theorem isOrdered_nats (l : List Nat) : (Json.arr (l.map .nat)).isOrdered := by
  rw [Json.isOrdered]
  induction l with
  | nil => rfl
  | cons t l ih => rwa [List.map_cons, itemsOrdered]

theorem depth_nats (l : List Nat) : (Json.arr (l.map .nat)).depth = 1 := by
  have hitem (t : Nat) : (Json.nat t).depth = 0 := rfl
  rw [Json.depth]
  induction l with
  | nil => rfl
  | cons t l ih => rwa [List.map_cons, itemsDepth, hitem, Nat.zero_max]

theorem readDelays_of_value {o : Origin} {d : Json.Draft} {j : Json} {l : List Nat}
    (hvalue : Json.Reading.value o d = .ok j) (h : delays? j = some l) : readDelays o d = .ok l := by
  rw [readDelays, hvalue]
  simp only [bind, Except.bind, h]
  rfl

theorem takes_delays {l : List Nat} (h : ∀ t ∈ l, t < UInt64.size) : Takes readDelays 1 (.arr (l.map .nat)) l :=
  fun _ _ ho hspell =>
    readDelays_of_value (Takes.value (isOrdered_nats l) (depth_nats l ▸ ho) hspell) (delays?_nats h)

theorem takes_delay {n : Nat} (h : n < UInt64.size) : Takes readDelays 0 (.nat n) [n] := by
  intro o spell ho hspell
  refine readDelays_of_value (Takes.value (j := .nat n) rfl ho hspell) ?_
  rw [delays?, delay?_nat h]
  · rfl
  · nofun

/-- what is written of a rule -/
def entries (r : RetryRule) : List (Entry RetryRule) :=
  [⟨"max", .nat r.max, fun s => { s with max := r.max }⟩,
    ⟨"times", .arr (r.times.map .nat), fun s => { s with times := r.times }⟩]

theorem takes_toJson {r : RetryRule} (h : r.Fit) : Takes reading 2 r.toJson r := by
  have hmax := (Takes.natural (Nat.le_pred_of_lt h.max)).mono (Nat.zero_le 1)
  have htimes := takes_delays h.times
  refine Takes.record r.entries ?_ (by simp [entries]) (by simp [Entry.Complete, entries, required]) ⟨0, []⟩
  simp only [entries, List.forall_mem_cons]
  refine ⟨⟨_, rfl, hmax.map _⟩, ⟨_, rfl, htimes.map _⟩, List.forall_mem_nil _⟩

theorem isIntegral_toJson {r : RetryRule} (h : r.Fit) : r.toJson.isIntegral := by
  have hmax := isIntegral_nat (h.max.trans (by decide))
  have htimes : (Json.arr (r.times.map .nat)).isIntegral :=
    itemsIntegral_iff.2 (List.forall_mem_map.2 fun t ht => isIntegral_nat (h.times t ht))
  rw [toJson, Json.isIntegral, fieldsIntegral_iff]
  simp only [List.forall_mem_cons]
  exact ⟨hmax, htimes, List.forall_mem_nil _⟩

/-- Whether a rule gives a lone delay or the list of it, and whatever else it gives, the same is read. -/
theorem reading_lone {n : Nat} (h : n < UInt64.size) {o : Origin} (ho : o.Admits 2) {spell : String → Bytes}
    (hspell : Json.Plain spell) (before after : Fields) :
    reading o ((Json.obj (before ++ ("times", .nat n) :: after)).draftAs spell) =
      reading o ((Json.obj (before ++ ("times", .arr [.nat n]) :: after)).draftAs spell) := by
  obtain ⟨i, hi, hadm⟩ := ho.enter
  have hlist : Takes readDelays 1 (.arr [.nat n]) [n] := takes_delays (l := [n]) (by simpa using h)
  rw [Json.draftAs, Json.draftAs, reading, Json.Reading.record, Json.Reading.record, hi]
  refine Json.Reading.fromMembers_congr ?_ before after [] (⟨0, []⟩ : RetryRule)
  simp only [List.forall_mem_cons]
  refine ⟨fun hname => absurd hname (by decide : "max" ≠ "times"), fun _ => ?_, List.forall_mem_nil _⟩
  have hlone := (takes_delay h).mono (Nat.zero_le 1)
  let set (l : List Nat) (r : RetryRule) : RetryRule := { r with times := l }
  exact (hlone.map set hadm hspell).trans (hlist.map set hadm hspell).symm

theorem ofJson_lone_eq {n : Nat} (h : n < UInt64.size) (before after : Fields) :
    reading.ofJson (.obj (before ++ ("times", .nat n) :: after)) =
      reading.ofJson (.obj (before ++ ("times", .arr [.nat n]) :: after)) := by
  rw [Json.Reading.ofJson, Json.Reading.ofJson, Json.toDraft_eq_draftAs, Json.toDraft_eq_draftAs]
  exact reading_lone (o := .value) h trivial Json.plain_toBytes before after

theorem ofJson_lone {max n : Nat} (hmax : max < UInt32.size) (h : n < UInt64.size) :
    reading.ofJson (.obj [("max", .nat max), ("times", .nat n)]) = .ok ⟨max, [n]⟩ := by
  have hlisted : (⟨max, [n]⟩ : RetryRule).Fit := ⟨hmax, by simpa using h⟩
  exact (ofJson_lone_eq h [("max", .nat max)] []).trans (takes_toJson hlisted).ofJson

theorem parseText_lone_eq {n : Nat} (h : n < UInt64.size) {before after : Fields} (hbefore : fieldsIntegral before)
    (hafter : fieldsIntegral after) :
    reading.parseText (Json.obj (before ++ ("times", .nat n) :: after)).render =
      reading.parseText (Json.obj (before ++ ("times", .arr [.nat n]) :: after)).render := by
  have hintegral {j : Json} (hj : j.isIntegral) : (Json.obj (before ++ ("times", j) :: after)).isIntegral := by
    rw [fieldsIntegral_iff] at hbefore hafter
    rw [Json.isIntegral, fieldsIntegral_iff]
    simp only [List.forall_mem_append, List.forall_mem_cons]
    exact ⟨hbefore, hj, hafter⟩
  have hn := isIntegral_nat h
  have hlisted : (Json.arr [.nat n]).isIntegral := itemsIntegral_iff.2 (by simpa using hn)
  rw [Json.Reading.parseText, Json.Reading.parseText, Json.Reading.parse_render _ (hintegral hn),
    Json.Reading.parse_render _ (hintegral hlisted)]
  have hadmits : (Origin.text Json.maxLevels).Admits 2 := (by decide : 2 ≤ Json.maxLevels)
  exact reading_lone h hadmits Json.plain_escapedBytes before after

end RetryRule

namespace Settings

/-- Whether there are such settings: their numbers fit, and there is one rule for a code. -/
structure Fit (s : Settings) : Prop where
  pingInterval : s.pingInterval < UInt64.size
  inOrder : Table.InOrder s.retries
  codes : ∀ x ∈ s.retries, x.1 < UInt16.size
  rules : ∀ x ∈ s.retries, x.2.Fit
  rotateCodes : ∀ c ∈ s.rotateCodes, c < UInt16.size
  retryCodes : ∀ c ∈ s.retryCodes, c < UInt16.size

/-- what is written of settings whose rules are written in the order of `table` -/
def entries (s : Settings) (table : List (Nat × RetryRule)) : List (Entry Settings) :=
  [⟨"ping_interval", .nat s.pingInterval, fun k => { k with pingInterval := s.pingInterval }⟩,
    ⟨"retries", .obj (table.map fun x => (toString x.1, x.2.toJson)),
      fun k => { k with retries := CodeTable.ofList table }⟩,
    ⟨"rotate_error_codes", .arr (s.rotateCodes.map .nat), fun k => { k with rotateCodes := s.rotateCodes }⟩,
    ⟨"close_and_retry_codes", .arr (s.retryCodes.map .nat), fun k => { k with retryCodes := s.retryCodes }⟩]

/-- the settings written with their rules in the order of `table` -/
def toJsonAs (s : Settings) (table : List (Nat × RetryRule)) : Json := .obj ((s.entries table).map Entry.field)

variable {s : Settings} {table : List (Nat × RetryRule)}

/-- The rules are written in one of their orders, namely that of the names that their codes are written as. -/
theorem exists_toJson_eq (h : Table.InOrder s.retries) : ∃ table, table ~ s.retries ∧ s.toJson = s.toJsonAs table := by
  have hnodup : ((s.retries.map fun x => (toString x.1, x.2.toJson)).map Prod.fst).Nodup := by
    rw [List.map_map]
    have hcodes := h.nodup_keys.map Decimal.toString_injective
    rwa [List.map_map] at hcodes
  have hperm := Table.perm_ofList hnodup
  rw [← Fields.ofList_eq] at hperm
  obtain ⟨table, htable, hrules⟩ := (congrFun (congrFun (List.eq_map_comp_perm _) _) _).mpr hperm
  refine ⟨table, hrules, ?_⟩
  rw [toJson, Json.ofFields, htable]
  rfl

theorem takes_toJsonAs (h : s.Fit) (htable : table ~ s.retries) : Takes reading 4 (s.toJsonAs table) s := by
  have hping := (Takes.natural (Nat.le_pred_of_lt h.pingInterval)).mono (Nat.zero_le 3)
  have hretries := Takes.codeTable (fun x hx => h.codes x (htable.mem_iff.1 hx)) fun x hx =>
    RetryRule.takes_toJson (h.rules x (htable.mem_iff.1 hx))
  have hcodes {l : List Nat} (hl : ∀ c ∈ l, c < UInt16.size) :
      Takes (Json.Reading.list Json.Reading.nat16) 3 (.arr (l.map .nat)) l :=
    (Takes.list fun c hc => Takes.natural (Nat.le_pred_of_lt (hl c hc))).mono (by decide)
  have hsettled : CodeTable.ofList table = s.retries := by
    rw [CodeTable.ofList_eq, Table.ofList_eq_of_perm h.inOrder htable]
  have hread : Takes reading 4 (s.toJsonAs table) { s with retries := CodeTable.ofList table } := by
    refine Takes.record (s.entries table) ?_ (by simp [entries]) (by simp [Entry.Complete, field]) none
    simp only [entries, List.forall_mem_cons]
    exact ⟨⟨_, rfl, hping.map _⟩, ⟨_, rfl, hretries.map _⟩, ⟨_, rfl, (hcodes h.rotateCodes).map _⟩,
      ⟨_, rfl, (hcodes h.retryCodes).map _⟩, List.forall_mem_nil _⟩
  rwa [hsettled] at hread

theorem isIntegral_toJsonAs (h : s.Fit) (htable : table ~ s.retries) : (s.toJsonAs table).isIntegral := by
  have hping := isIntegral_nat h.pingInterval
  have hretries : (Json.obj (table.map fun x => (toString x.1, x.2.toJson))).isIntegral :=
    fieldsIntegral_iff.2 (List.forall_mem_map.2 fun x hx =>
      RetryRule.isIntegral_toJson (h.rules x (htable.mem_iff.1 hx)))
  have hcodes {l : List Nat} (hl : ∀ c ∈ l, c < UInt16.size) : (Json.arr (l.map .nat)).isIntegral :=
    itemsIntegral_iff.2 (List.forall_mem_map.2 fun c hc => isIntegral_nat ((hl c hc).trans (by decide)))
  refine fieldsIntegral_iff.2 (List.forall_mem_map.2 ?_)
  simp only [entries, List.forall_mem_cons]
  exact ⟨hping, hretries, hcodes h.rotateCodes, hcodes h.retryCodes, List.forall_mem_nil _⟩

end Settings

end ChatWire
