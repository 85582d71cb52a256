import ChatWire.Message.Item
import Mathlib.Data.List.Basic
import Mathlib.Tactic.SplitIfs

/-! What an item is made of. Every field is read from what stands under its own name, whatever that is, and fields
without a meaning are kept. The names of accounts are rewritten where the server says its placeholder; the name of the
conversation is taken before that. -/

namespace ChatWire

theorem Fields.get?_filter (p : String → Bool) (name : String) (fields : Fields) :
    Fields.get? name (fields.filter fun x => p x.1) = if p name then fields.get? name else none := by
  simp only [Fields.get?]
  induction fields with
  | nil => exact (ite_self _).symm
  | cons x fields ih =>
    obtain ⟨n, v⟩ := x
    rw [List.filter_cons, List.lookup_cons]
    by_cases hname : name = n
    · subst hname
      rw [BEq.rfl]
      split_ifs
      · rw [List.lookup_cons, BEq.rfl]
      · rw [ih, if_neg ‹_›]
    · rw [beq_eq_false_iff_ne.2 hname, ← ih]
      split_ifs
      · rw [List.lookup_cons, beq_eq_false_iff_ne.2 hname]
      · rfl

namespace MessageData

/-- the fields that are passed on as text, by the names that they are read under -/
def texts : List (String × (MessageData → String)) :=
  [("msgId", msgId), ("cliMsgId", cliMsgId), ("msgType", msgType), ("dName", dName), ("ts", ts)]

theorem texts_ofFields (fields : Fields) : ∀ x ∈ texts, x.2 (ofFields fields) = Lenient.textField fields x.1 := by
  simp [texts, ofFields]

/-- an item with other accounts -/
def between (d : MessageData) (uidFrom idTo : String) : MessageData := { d with uidFrom, idTo }

@[simp] theorem uidFrom_between (d : MessageData) (uidFrom idTo : String) :
    (d.between uidFrom idTo).uidFrom = uidFrom := rfl

@[simp] theorem idTo_between (d : MessageData) (uidFrom idTo : String) : (d.between uidFrom idTo).idTo = idTo := rfl

theorem texts_between (d : MessageData) (uidFrom idTo : String) :
    ∀ x ∈ texts, x.2 (d.between uidFrom idTo) = x.2 d := by
  simp [texts, between]

theorem mem_extra (fields : Fields) (x : String × Json) :
    x ∈ (ofFields fields).extra ↔ x ∈ fields ∧ x.1 ∉ names := by
  simp [ofFields]

theorem get?_extra (fields : Fields) (name : String) :
    (ofFields fields).extra.get? name = if name ∈ names then none else fields.get? name := by
  refine (Fields.get?_filter (fun n => !names.contains n) name fields).trans ?_
  by_cases hname : name ∈ names <;> simp [hname]

end MessageData

/-- the fields of a recall, by the names that they are read under -/
def UndoContent.texts : List (String × (UndoContent → String)) :=
  [("globalMsgId", globalMsgId), ("cliMsgId", cliMsgId), ("deleteMsg", deleteMsg), ("srcId", srcId), ("destId", destId)]

theorem UndoContent.texts_ofFields (fields : Fields) :
    ∀ x ∈ texts, x.2 (ofFields fields) = Lenient.textField fields x.1 := by
  simp [texts, ofFields]

namespace Item

def data : Item → MessageData
  | message m => m.data
  | undo u => u.data

def thread : Item → Thread
  | message m => m.thread
  | undo u => u.thread

def threadId : Item → String
  | message m => m.threadId
  | undo u => u.threadId

/-- what an item takes back, if it is a recall -/
def takesBack? : Item → Option UndoContent
  | message _ => none
  | undo u => some u.undo

/-- A recall is an object that says what is deleted; the rest of it is read whatever it is. -/
theorem undoOf?_eq_some_iff {content : Json} {u : UndoContent} :
    undoOf? content = some u ↔
      ∃ inner : Fields, content = .obj inner ∧ (inner.get? "deleteMsg").isSome ∧
        UndoContent.ofFields inner = u := by
  cases content with
  | obj inner => simp [undoOf?, Json.asFields?]
  | _ => simp [undoOf?, Json.asFields?]

/-- An item is a message or a recall by whether it takes something back. -/
def ofParts (threadId : String) (thread : Thread) (isSelf : Bool) (data : MessageData) : Option UndoContent → Item
  | none => message ⟨threadId, thread, isSelf, data⟩
  | some u => undo ⟨threadId, thread, isSelf, data, u⟩

section Parts

variable (threadId : String) (thread : Thread) (isSelf : Bool) (data : MessageData) (u : Option UndoContent)

@[simp] theorem threadId_ofParts : (ofParts threadId thread isSelf data u).threadId = threadId := by cases u <;> rfl

@[simp] theorem thread_ofParts : (ofParts threadId thread isSelf data u).thread = thread := by cases u <;> rfl

@[simp] theorem isSelf_ofParts : (ofParts threadId thread isSelf data u).isSelf = isSelf := by cases u <;> rfl

@[simp] theorem data_ofParts : (ofParts threadId thread isSelf data u).data = data := by cases u <;> rfl

@[simp] theorem takesBack?_ofParts : (ofParts threadId thread isSelf data u).takesBack? = u := by cases u <;> rfl

end Parts

variable (uid : String) (t : Thread) (fields : Fields)

/-- the sender, as the server says it -/
def sentFrom : String := Lenient.textField fields "uidFrom"

/-- the receiver, as the server says it -/
def sentTo : String := Lenient.textField fields "idTo"

/-- The receiver names the conversation of a group, and that of an own item. -/
def conversation : String := if t = .group ∨ sentFrom fields = "0" then sentTo fields else sentFrom fields

/-- the account that a name stands for -/
def account (name : String) : String := if name = "0" then uid else name

/-- the item that the fields of an object make -/
def ofFields : Item :=
  ofParts (conversation t fields) t (sentFrom fields == "0")
    ((MessageData.ofFields fields).between (account uid (sentFrom fields)) (account uid (sentTo fields)))
    (undoOf? ((fields.get? "content").getD .null))

theorem classify_obj : classify uid t (.obj fields) = .ok (ofFields uid t fields) := by
  have hfrom : account uid (sentFrom fields) = if sentFrom fields == "0" then uid else sentFrom fields := by
    simp only [account, beq_iff_eq]
  have huser : conversation .user fields = if sentFrom fields == "0" then sentTo fields else sentFrom fields := by
    simp [conversation]
  have hgroup : conversation .group fields = sentTo fields := if_pos (.inl rfl)
  have hread : MessageData.ofJson (.obj fields) = .ok (MessageData.ofFields fields) := rfl
  have hcontent : (MessageData.ofFields fields).content = (fields.get? "content").getD .null := rfl
  rw [classify, hread, ofFields, hfrom]
  simp only [bind, Except.bind, hcontent]
  cases undoOf? ((fields.get? "content").getD .null)
  all_goals
    cases t with
    | user =>
      rw [huser]
      rfl
    | group =>
      rw [hgroup]
      rfl

/-- Nothing but objects. -/
theorem exists_classify_error_iff {raw : Json} :
    (∃ e, classify uid t raw = .error e) ↔ ¬ ∃ fields, raw = .obj fields := by
  cases raw with
  | obj fields => simp [classify_obj]
  | _ => simp [classify, MessageData.ofJson, Json.asFields?, bind, Except.bind]

/-- Whether an item is what the fields of an object say, to an account in a kind of conversation. -/
structure Reads (item : Item) : Prop where
  takesBack : item.takesBack?.isSome ↔
    ∃ inner : Fields, fields.get? "content" = some (.obj inner) ∧ (inner.get? "deleteMsg").isSome
  takenBack : ∀ u inner, item.takesBack? = some u → fields.get? "content" = some (.obj inner) →
    ∀ x ∈ UndoContent.texts, x.2 u = Lenient.textField inner x.1
  isSelf : item.isSelf ↔ sentFrom fields = "0"
  thread : item.thread = t
  threadId : item.threadId = if t = .group ∨ sentFrom fields = "0" then sentTo fields else sentFrom fields
  uidFrom : item.data.uidFrom = if sentFrom fields = "0" then uid else sentFrom fields
  idTo : item.data.idTo = if sentTo fields = "0" then uid else sentTo fields
  texts : ∀ x ∈ MessageData.texts, x.2 item.data = Lenient.textField fields x.1
  content : item.data.content = (fields.get? "content").getD .null
  ttl : item.data.ttl = Lenient.intField fields "ttl"
  extra : ∀ x, x ∈ item.data.extra ↔ x ∈ fields ∧ x.1 ∉ MessageData.names
  kept : ∀ name, item.data.extra.get? name = if name ∈ MessageData.names then none else fields.get? name

theorem takesBack?_ofFields_eq_some_iff {u : UndoContent} : (ofFields uid t fields).takesBack? = some u ↔
    ∃ inner : Fields, fields.get? "content" = some (.obj inner) ∧ (inner.get? "deleteMsg").isSome ∧
      UndoContent.ofFields inner = u := by
  have hcontent (inner : Fields) :
      (fields.get? "content").getD .null = .obj inner ↔ fields.get? "content" = some (.obj inner) := by
    cases fields.get? "content" <;> simp
  rw [ofFields, takesBack?_ofParts, undoOf?_eq_some_iff]
  simp only [hcontent]

theorem reads_ofFields : Reads uid t fields (ofFields uid t fields) where
  takesBack := by
    rw [Option.isSome_iff_exists]
    constructor
    · rintro ⟨u, hu⟩
      obtain ⟨inner, hinner, hdelete, -⟩ := (takesBack?_ofFields_eq_some_iff ..).1 hu
      exact ⟨inner, hinner, hdelete⟩
    · rintro ⟨inner, hinner, hdelete⟩
      exact ⟨_, (takesBack?_ofFields_eq_some_iff ..).2 ⟨inner, hinner, hdelete, rfl⟩⟩
  takenBack u inner hu hinner := by
    obtain ⟨other, hother, -, rfl⟩ := (takesBack?_ofFields_eq_some_iff ..).1 hu
    cases hinner.symm.trans hother
    exact UndoContent.texts_ofFields inner
  isSelf := by rw [ofFields, isSelf_ofParts, beq_iff_eq]
  thread := thread_ofParts ..
  threadId := threadId_ofParts ..
  uidFrom := by rw [ofFields, data_ofParts, MessageData.uidFrom_between, account]
  idTo := by rw [ofFields, data_ofParts, MessageData.idTo_between, account]
  texts x hx := by
    rw [ofFields, data_ofParts, MessageData.texts_between _ _ _ x hx, MessageData.texts_ofFields fields x hx]
  content := by rw [ofFields, data_ofParts]; rfl
  ttl := by rw [ofFields, data_ofParts]; rfl
  extra := by
    rw [ofFields, data_ofParts]
    exact MessageData.mem_extra fields
  kept := by
    rw [ofFields, data_ofParts]
    exact MessageData.get?_extra fields

/-- Objects are items, nothing else is; and what an item says is what the object says, but for the two accounts. -/
theorem items_are_classified :
    (∀ raw, (∃ e, classify uid t raw = .error e) ↔ ¬ ∃ fields, raw = .obj fields) ∧
      ∀ fields, ∃ item, classify uid t (.obj fields) = .ok item ∧ Reads uid t fields item :=
  ⟨fun _ => exists_classify_error_iff uid t, fun fields => ⟨_, classify_obj uid t fields, reads_ofFields uid t fields⟩⟩

/-! Placeholders. -/

/-- who is on the other side of an item -/
def partner (i : Item) : String := if i.isSelf then i.data.idTo else i.data.uidFrom

theorem account_ne {uid : String} (h : uid ≠ "0") (name : String) : account uid name ≠ "0" := by
  unfold account
  split_ifs with hname
  · exact h
  · exact hname

/-- The accounts of an item are never called as the server calls the account of the session. A conversation is only
if the receiver who names it is; and of one user with another it is with the other one. -/
theorem placeholders_are_replaced {uid : String} (huid : uid ≠ "0") (t : Thread) (fields : Fields) :
    ∃ item, classify uid t (.obj fields) = .ok item ∧ item.data.uidFrom ≠ "0" ∧ item.data.idTo ≠ "0" ∧
      (item.threadId = "0" ↔ sentTo fields = "0" ∧ (t = .group ∨ sentFrom fields = "0")) ∧
      (t = .user → (item.threadId = item.partner ↔ ¬ (sentFrom fields = "0" ∧ sentTo fields = "0"))) := by
  have hreads := reads_ofFields uid t fields
  refine ⟨_, classify_obj uid t fields, ?_, ?_, ?_, ?_⟩
  · rw [hreads.uidFrom]
    exact account_ne huid _
  · rw [hreads.idTo]
    exact account_ne huid _
  · rw [hreads.threadId]
    split_ifs with h
    · exact ⟨fun hto => ⟨hto, h⟩, And.left⟩
    · exact iff_of_false (fun hfrom => h (.inr hfrom)) fun hboth => h hboth.2
  · rintro rfl
    simp only [partner, hreads.isSelf, hreads.threadId, hreads.uidFrom, hreads.idTo]
    by_cases hfrom : sentFrom fields = "0"
    · by_cases hto : sentTo fields = "0"
      · simp [hfrom, hto, huid.symm]
      · simp [hfrom, hto]
    · simp [hfrom]

theorem placeholders_are_replaced_own :
    ∃ item, classify "777" .user (.obj [("idTo", .str "42"), ("uidFrom", .str "0")]) = .ok item ∧
      item.data.uidFrom ≠ "0" ∧ item.threadId ≠ "0" ∧ item.threadId = item.partner := by
  let fields : Fields := [("idTo", .str "42"), ("uidFrom", .str "0")]
  obtain ⟨item, hitem, hfrom, -, hthread, hpartner⟩ :=
    placeholders_are_replaced (by decide : "777" ≠ "0") .user fields
  have hto : sentTo fields ≠ "0" := by decide
  exact ⟨item, hitem, hfrom, fun h => hto (hthread.1 h).1, (hpartner rfl).2 fun h => hto h.2⟩

/-- notes to oneself, and a group that is called as the account is -/
theorem placeholders_are_replaced_but_for_threads :
    (∃ item, classify "777" .user (.obj [("idTo", .str "0"), ("uidFrom", .str "0")]) = .ok item ∧
      item.threadId = "0" ∧ item.partner = "777") ∧
    ∃ item, classify "777" .group (.obj [("idTo", .str "0"), ("uidFrom", .str "42")]) = .ok item ∧
      item.threadId = "0" ∧ item.data.idTo = "777" :=
  ⟨⟨_, rfl, by decide, by decide⟩, _, rfl, by decide, by decide⟩

end Item

end ChatWire
