import ChatWire.Proofs.Bytes.Base64
import ChatWire.Proofs.Json.Reading
import ChatWire.Proofs.Message.Item
import ChatWire.Proofs.Outcome
import ChatWire.Proofs.Table
import ChatWire.Proofs.Text.Decimal

/-! What an item is written as. Whatever its fields held, what was read of them is written in such a way that the same
is read again, so that to read and to write once more changes nothing. Fields without a meaning are written along with
the others, and no name comes twice. -/

namespace ChatWire

open scoped List

theorem Fields.inOrder_ofList (l : Fields) : Table.InOrder (ofList l) := ofList_eq l ▸ Table.inOrder_ofList l

theorem Fields.perm_ofList {l : Fields} (h : (l.map Prod.fst).Nodup) : ofList l ~ l :=
  ofList_eq l ▸ Table.perm_ofList h

theorem Fields.get?_ofList {l : Fields} (h : (l.map Prod.fst).Nodup) {x : String × Json} (hx : x ∈ l) :
    (ofList l).get? x.1 = some x.2 :=
  Table.lookup_of_mem (inOrder_ofList l).nodup_keys ((perm_ofList h).mem_iff.2 hx)

namespace Lenient

theorem textField_of_str {fields : Fields} {name s : String} (h : fields.get? name = some (.str s)) :
    textField fields name = s := by
  rw [textField, h]
  rfl

theorem intField_of_some {fields : Fields} {name : String} {j : Json} (h : fields.get? name = some j) :
    intField fields name = int64 j := by
  rw [intField, h]
  rfl

theorem int64_le (j : Json) : int64 j ≤ greatestInt64 := by
  match j with
  | .num (.int n) => exact min_le_right ..
  | .num (.float x) => exact max_le (by decide) (min_le_right ..)
  | .str s =>
    rw [int64]
    cases h : Decimal.int64? (Text.trim s) with
    | none => decide
    | some n => exact (isInt64_iff.1 (Option.filter_eq_some_iff.1 h).2).2
  | .null | .bool _ | .arr _ | .obj _ => exact (by decide : (0 : Int) ≤ greatestInt64)

theorem int64_int {n : Int} (h : n ≤ greatestInt64) : int64 (.int n) = n := min_eq_left h

/-- A number that is spelled, with white space around it. -/
theorem int64_spelled {n : Int} (h : isInt64 n) {before after : List Char} (hbefore : ∀ c ∈ before, Text.isBlank c)
    (hafter : ∀ c ∈ after, Text.isBlank c) :
    int64 (.str (String.ofList (before ++ (toString n).toList ++ after))) = n := by
  have htrim : Text.trim (String.ofList (before ++ (toString n).toList ++ after)) = toString n := by
    rw [Text.trim, String.toList_ofList, Text.trimChars_surrounded hbefore Decimal.not_isBlank_int_toString hafter,
      String.ofList_toList]
  rw [int64, htrim, Decimal.int64?_toString h]
  rfl

end Lenient

namespace MessageData

/-- the fields that are written under names with a meaning -/
def modelled (d : MessageData) : Fields :=
  [("msgId", .str d.msgId), ("cliMsgId", .str d.cliMsgId), ("msgType", .str d.msgType), ("uidFrom", .str d.uidFrom),
    ("idTo", .str d.idTo), ("dName", .str d.dName), ("ts", .str d.ts), ("content", d.content), ("ttl", .int d.ttl)]

/-- all fields as they are written -/
def written (d : MessageData) : Fields := Fields.ofList (d.modelled ++ d.extra)

theorem toJson_eq (d : MessageData) : d.toJson = .obj d.written := rfl

theorem keys_modelled (d : MessageData) : d.modelled.map Prod.fst = names := rfl

/-- What holds of an item that was read: its number is in range, and the fields without a meaning are in order. -/
structure Settled (d : MessageData) : Prop where
  ttl : d.ttl ≤ greatestInt64
  inOrder : Table.InOrder d.extra
  unmodelled : ∀ x ∈ d.extra, x.1 ∉ names

theorem mem_keys_extra (fields : Fields) {name : String} :
    name ∈ (ofFields fields).extra.map Prod.fst ↔ name ∉ names ∧ name ∈ fields.map Prod.fst := by
  simp only [List.mem_map, mem_extra]
  constructor
  · rintro ⟨x, ⟨hx, hname⟩, rfl⟩
    exact ⟨hname, x, hx, rfl⟩
  · rintro ⟨hname, x, hx, rfl⟩
    exact ⟨x, ⟨hx, hname⟩, rfl⟩

theorem settled_ofFields {fields : Fields} (h : Table.InOrder fields) : (ofFields fields).Settled where
  ttl := by
    have hfield : (ofFields fields).ttl = Lenient.intField fields "ttl" := rfl
    rw [hfield, Lenient.intField]
    cases fields.get? "ttl" with
    | none => decide
    | some j => exact Lenient.int64_le j
  inOrder := h.filter _
  unmodelled x hx := ((mem_extra fields x).1 hx).2

namespace Settled

variable {d : MessageData} (h : d.Settled)
include h

theorem nodup_keys : ((d.modelled ++ d.extra).map Prod.fst).Nodup := by
  rw [List.map_append, keys_modelled, List.nodup_append]
  refine ⟨by decide, h.inOrder.nodup_keys, ?_⟩
  rintro name hname other hother rfl
  obtain ⟨x, hx, rfl⟩ := List.mem_map.1 hother
  exact h.unmodelled x hx hname

theorem perm_written : d.written ~ d.modelled ++ d.extra := Fields.perm_ofList h.nodup_keys

theorem mem_keys_written {name : String} :
    name ∈ d.written.map Prod.fst ↔ name ∈ names ∨ name ∈ d.extra.map Prod.fst := by
  rw [(h.perm_written.map Prod.fst).mem_iff, List.map_append, keys_modelled, List.mem_append]

/-- Nothing but the fields without a meaning is left over. -/
theorem filter_written : (d.written.filter fun x => !names.contains x.1) = d.extra := by
  have hmodelled : (d.modelled.filter fun x => !names.contains x.1) = [] := by
    refine List.filter_eq_nil_iff.2 fun x hx => ?_
    have hname : x.1 ∈ names := List.mem_map_of_mem hx
    simpa using hname
  have hextra : (d.extra.filter fun x => !names.contains x.1) = d.extra :=
    List.filter_eq_self.2 fun x hx => by simpa using h.unmodelled x hx
  have hperm := h.perm_written.filter fun x => !names.contains x.1
  rw [List.filter_append, hmodelled, hextra, List.nil_append] at hperm
  exact Table.InOrder.eq_of_perm ((Fields.inOrder_ofList _).filter _) h.inOrder hperm

/-- An item is read back from what it is written as. -/
theorem ofFields_written : ofFields d.written = d := by
  have hget : ∀ x ∈ d.modelled, d.written.get? x.1 = some x.2 := fun x hx =>
    Fields.get?_ofList h.nodup_keys (List.mem_append_left _ hx)
  simp only [modelled, List.forall_mem_cons, List.not_mem_nil, false_imp_iff, implies_true, and_true] at hget
  obtain ⟨hmsgId, hcliMsgId, hmsgType, huidFrom, hidTo, hdName, hts, hcontent, httl⟩ := hget
  rw [ofFields, Lenient.textField_of_str hmsgId, Lenient.textField_of_str hcliMsgId,
    Lenient.textField_of_str hmsgType, Lenient.textField_of_str huidFrom, Lenient.textField_of_str hidTo,
    Lenient.textField_of_str hdName, Lenient.textField_of_str hts, hcontent, Lenient.intField_of_some httl,
    Lenient.int64_int h.ttl, h.filter_written]
  rfl

end Settled

end MessageData

namespace UndoContent

def names : List String := ["globalMsgId", "cliMsgId", "deleteMsg", "srcId", "destId"]

def modelled (u : UndoContent) : Fields := texts.map fun x => (x.1, .str (x.2 u))

def written (u : UndoContent) : Fields := Fields.ofList u.modelled

theorem toJson_eq (u : UndoContent) : u.toJson = .obj u.written := rfl

theorem nodup_keys (u : UndoContent) : (u.modelled.map Prod.fst).Nodup := (by decide : names.Nodup)

theorem mem_keys_written (u : UndoContent) {name : String} : name ∈ u.written.map Prod.fst ↔ name ∈ names :=
  ((Fields.perm_ofList u.nodup_keys).map Prod.fst).mem_iff

theorem ofFields_written (u : UndoContent) : ofFields u.written = u := by
  have hget : ∀ x ∈ texts, Lenient.textField u.written x.1 = x.2 u := fun x hx =>
    Lenient.textField_of_str (Fields.get?_ofList u.nodup_keys (List.mem_map_of_mem hx))
  simp only [texts, List.forall_mem_cons, List.not_mem_nil, false_imp_iff, implies_true, and_true] at hget
  obtain ⟨hglobalMsgId, hcliMsgId, hdeleteMsg, hsrcId, hdestId⟩ := hget
  rw [ofFields, hglobalMsgId, hcliMsgId, hdeleteMsg, hsrcId, hdestId]

end UndoContent

/-! Objects that come from texts. -/

namespace Json

theorem Members.inOrder_of_read {o : Origin} : ∀ {members : Members} {before fields : Fields},
    Table.InOrder before → members.read o before = .ok fields → Table.InOrder fields
  | .closed, _, _, hbefore, h => Except.ok.inj h ▸ hbefore
  | .cons key d rest, before, _, hbefore, h => by
    obtain ⟨name, -, h⟩ := bind_eq_ok_iff.1 h
    obtain ⟨j, -, h⟩ := bind_eq_ok_iff.1 h
    refine inOrder_of_read ?_ h
    rw [Fields.insert_eq]
    exact hbefore.insert

theorem Draft.inOrder_of_read {o : Origin} {d : Draft} {fields : Fields} (h : d.read o = .ok (.obj fields)) :
    Table.InOrder fields := by
  cases d with
  | object members =>
    obtain ⟨i, -, h⟩ := bind_eq_ok_iff.1 h
    obtain ⟨read, hread, h⟩ := bind_eq_ok_iff.1 h
    cases h
    exact Members.inOrder_of_read .nil hread
  | array items =>
    obtain ⟨i, -, h⟩ := bind_eq_ok_iff.1 h
    obtain ⟨read, -, h⟩ := bind_eq_ok_iff.1 h
    cases h
  | number n => cases n <;> cases h
  | string s => cases s <;> cases h
  | null | bool | broken => cases h

/-- An object that a text says is in order. -/
theorem inOrder_of_parse {text : String} {fields : Fields} (h : parse text = .ok (.obj fields)) :
    Table.InOrder fields := by
  obtain ⟨j, hj, h⟩ := bind_eq_ok_iff.1 h
  split_ifs at h
  cases h
  exact Draft.inOrder_of_read hj

end Json

namespace MessageData

/-- Every object is an item, and what is written of it is an object of the names with a meaning and of all others that
the object had, each once; the same item is read from that, and is written as the same again. So it is with the content
of a recall, which has a place for its own names only. A number may be given in digits. -/
theorem items_have_normal_forms :
    (∀ text fields, Json.parse text = .ok (.obj fields) → Table.InOrder fields) ∧
    (∀ fields : Fields, Table.InOrder fields → ∃ d, ofJson (.obj fields) = .ok d ∧
      (∃ out, d.toJson = .obj out ∧ (out.map Prod.fst).Nodup ∧
        ∀ name, name ∈ out.map Prod.fst ↔ name ∈ names ∨ name ∉ names ∧ name ∈ fields.map Prod.fst) ∧
      ofJson d.toJson = .ok d ∧ (ofJson d.toJson).map toJson = .ok d.toJson) ∧
    (∀ fields : Fields, ∃ out, (UndoContent.ofFields fields).toJson = .obj out ∧ (out.map Prod.fst).Nodup ∧
      (∀ name, name ∈ out.map Prod.fst ↔ name ∈ UndoContent.names) ∧
      UndoContent.ofFields out = UndoContent.ofFields fields ∧ (UndoContent.ofFields out).toJson = .obj out) ∧
    ∀ n, isInt64 n → ∀ fields : Fields,
      (fields.get? "ttl" = some (.int n) → (ofFields fields).ttl = n) ∧
      ∀ before after : List Char, (∀ c ∈ before, Text.isBlank c) → (∀ c ∈ after, Text.isBlank c) →
        fields.get? "ttl" = some (.str (String.ofList (before ++ (toString n).toList ++ after))) →
        (ofFields fields).ttl = n := by
  refine ⟨fun _ _ => Json.inOrder_of_parse, ?_, ?_, ?_⟩
  · intro fields hfields
    have h := settled_ofFields hfields
    have hread : ofJson (ofFields fields).toJson = .ok (ofFields fields) :=
      congrArg Except.ok h.ofFields_written
    refine ⟨ofFields fields, rfl, ⟨_, toJson_eq _, (Fields.inOrder_ofList _).nodup_keys, fun name => ?_⟩, hread, ?_⟩
    · exact h.mem_keys_written.trans (or_congr_right (mem_keys_extra fields))
    · rw [hread]
      rfl
  · intro fields
    have hread := UndoContent.ofFields_written (UndoContent.ofFields fields)
    exact ⟨_, UndoContent.toJson_eq _, (Fields.inOrder_ofList _).nodup_keys,
      fun _ => UndoContent.mem_keys_written (.ofFields fields), hread, congrArg UndoContent.toJson hread⟩
  · intro n hn fields
    have hread {j : Json} (h : fields.get? "ttl" = some j) : (ofFields fields).ttl = Lenient.int64 j :=
      Lenient.intField_of_some h
    refine ⟨fun h => ?_, fun before after hbefore hafter h => ?_⟩
    · rw [hread h, Lenient.int64_int (isInt64_iff.1 hn).2]
    · rw [hread h, Lenient.int64_spelled hn hbefore hafter]

/-- a number for a text, a text for a number, and a field without a meaning -/
theorem items_have_normal_forms_mixed :
    let fields : Fields := [("a", .arr [.bool true]), ("msgId", .int 12), ("ttl", .str " -7\n")]
    ∃ d, ofJson (.obj fields) = .ok d ∧ d.ttl = -7 ∧ ofJson d.toJson = .ok d ∧
      ∃ out, d.toJson = .obj out ∧ "a" ∈ out.map Prod.fst := by
  intro fields
  obtain ⟨htext, hitem, -, hnumber⟩ := items_have_normal_forms
  have hparse : Json.parse (Json.obj fields).render = .ok (.obj fields) := by
    rw [Json.parse, Json.Reading.parseText]
    exact Json.Reading.parse_value_render (by decide +kernel) (by decide +kernel) (by decide +kernel)
  obtain ⟨d, hd, ⟨out, hout, -, hkeys⟩, hread, -⟩ := hitem _ (htext _ _ hparse)
  have httl : d.ttl = -7 := by
    have hget : fields.get? "ttl" = some (.str (String.ofList ([' '] ++ (toString (-7)).toList ++ ['\n']))) := rfl
    have hspelled := (hnumber (-7) (by decide) fields).2 [' '] ['\n'] (List.forall_mem_singleton.2 (by decide))
      (List.forall_mem_singleton.2 (by decide)) hget
    cases hd
    exact hspelled
  exact ⟨d, hd, httl, hread, out, hout, (hkeys "a").2 (.inr ⟨by decide, by decide⟩)⟩

/-- The content of a recall does not keep a field without a meaning. -/
theorem recalls_keep_no_other_names :
    let fields : Fields := [("deleteMsg", .int 1), ("extra", .int 5)]
    ∃ out, (UndoContent.ofFields fields).toJson = .obj out ∧ "extra" ∉ UndoContent.names ∧
      "extra" ∈ fields.map Prod.fst ∧ "extra" ∉ out.map Prod.fst := by
  intro fields
  have hname : "extra" ∉ UndoContent.names := by decide
  refine ⟨_, UndoContent.toJson_eq _, hname, by decide, fun h => hname ?_⟩
  exact (UndoContent.mem_keys_written _).1 h

end MessageData

end ChatWire
