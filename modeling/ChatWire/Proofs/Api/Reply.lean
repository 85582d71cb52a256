import ChatWire.Api.Reply
import ChatWire.Proofs.Json.Meaning

/-! What a reply says, and what becomes of it. A reply is read as a whole before anyone looks at its code, so the
data can get in the way of the error that it comes with. -/

namespace ChatWire

open Json (Draft Fault Members Origin Reading)
open Json.Reading (Slot field fromMembers fromMembers_known fromMembers_unknown int64 integer_of_means
  optional_of_means string_of_means)

/-- What a reader takes from a field; `absent` stands for one that is not there. -/
def Fields.readAt {α : Type} (name : String) (r : Reading α) (absent : α) (fields : Fields) : Except Fault α :=
  match fields.get? name with
  | none => .ok absent
  | some j => r.ofJson j

theorem Fields.readAt_here {α : Type} (name : String) (r : Reading α) (absent : α) (j : Json) (fields : Fields) :
    readAt name r absent ((name, j) :: fields) = r.ofJson j := by
  rw [readAt, get?, List.lookup_cons_self]

theorem Fields.get?_later {name k : String} (h : name ≠ k) (j : Json) (fields : Fields) :
    get? name ((k, j) :: fields) = get? name fields := by
  rw [get?, get?, List.lookup_cons, beq_false_of_ne h]

theorem Fields.readAt_later {α : Type} {name k : String} (h : name ≠ k) (r : Reading α) (absent : α) (j : Json)
    (fields : Fields) : readAt name r absent ((k, j) :: fields) = readAt name r absent fields := by
  rw [readAt, readAt, get?_later h]

theorem Fields.get?_absent {name : String} {fields : Fields} (h : ∀ f ∈ fields, f.1 ≠ name) :
    fields.get? name = none :=
  List.lookup_eq_none_iff.2 fun f hf => bne_iff_ne.2 (h f hf).symm

theorem Fields.readAt_absent {α : Type} {name : String} {fields : Fields} (h : ∀ f ∈ fields, f.1 ≠ name)
    (r : Reading α) (absent : α) : readAt name r absent fields = .ok absent := by
  rw [readAt, get?_absent h]

namespace Reply

variable {α : Type} {r : Reading α}

def fieldNames : List String := ["error_code", "error_message", "data"]

/-- Whether no field of a reply comes twice. -/
def Distinct (fields : Fields) : Prop := fields.Pairwise fun f g => f.1 = g.1 → f.1 ∉ fieldNames

instance (fields : Fields) : Decidable (Distinct fields) := List.instDecidablePairwise _

/-- the fields of a reply, as its reader knows them -/
def slots (r : Reading α) : List (Slot (Reply α)) :=
  [ field "error_code" int64 fun c e => { e with errorCode := c },
    field "error_message" (Json.Reading.optional .string) fun m e => { e with errorMessage := m },
    { field "data" (Json.Reading.optional r) (fun d e => { e with data := d }) with need := .inList } ]

/-- A field that is there leaves nothing of its name for the others. -/
theorem Distinct.absent {k : String} {j : Json} {l : Fields} (h : Distinct ((k, j) :: l)) (hk : k ∈ fieldNames) :
    ∀ f ∈ l, f.1 ≠ k :=
  fun f hf hfk => (List.pairwise_cons.1 h).1 f hf hfk.symm hk

section Fields

variable {o : Origin} {d : Draft} {j : Json} {seen : List String}

theorem fromMembers_code (hd : d.Means j) (hseen : "error_code" ∉ seen) (raw : Bytes) (closed : Bool) (rest : Members)
    (e : Reply α) :
    fromMembers (slots r) o (.cons ⟨raw, closed, .ok "error_code", .ok ()⟩ d rest) seen e =
      int64.ofJson j >>= fun c => fromMembers (slots r) o rest ("error_code" :: seen) { e with errorCode := c } := by
  have hslot : ((slots r).find? fun f => f.name == "error_code") = some _ := rfl
  have hread : int64 o d = int64.ofJson j := integer_of_means _ _ hd o
  rw [fromMembers_known hslot rfl (by simpa using hseen), hread]

theorem fromMembers_message (hd : d.Means j) (hseen : "error_message" ∉ seen) (raw : Bytes) (closed : Bool)
    (rest : Members) (e : Reply α) :
    fromMembers (slots r) o (.cons ⟨raw, closed, .ok "error_message", .ok ()⟩ d rest) seen e =
      (Json.Reading.optional .string).ofJson j >>= fun m =>
        fromMembers (slots r) o rest ("error_message" :: seen) { e with errorMessage := m } := by
  have hslot : ((slots r).find? fun f => f.name == "error_message") = some _ := rfl
  rw [fromMembers_known hslot rfl (by simpa using hseen), optional_of_means hd (string_of_means hd o)]

theorem fromMembers_data (hd : d.Means j) (hr : r o d = r.ofJson j) (hseen : "data" ∉ seen) (raw : Bytes)
    (closed : Bool) (rest : Members) (e : Reply α) :
    fromMembers (slots r) o (.cons ⟨raw, closed, .ok "data", .ok ()⟩ d rest) seen e =
      (Json.Reading.optional r).ofJson j >>= fun a =>
        fromMembers (slots r) o rest ("data" :: seen) { e with data := a } := by
  have hslot : ((slots r).find? fun f => f.name == "data") = some _ := rfl
  rw [fromMembers_known hslot rfl (by simpa using hseen), optional_of_means hd hr]

theorem fromMembers_other {k : String} (hd : d.Means j) (hk : k ∉ fieldNames) (raw : Bytes) (closed : Bool)
    (rest : Members) (e : Reply α) :
    fromMembers (slots r) o (.cons ⟨raw, closed, .ok k, .ok ()⟩ d rest) seen e =
      fromMembers (slots r) o rest seen e := by
  simp only [fieldNames, List.mem_cons, List.not_mem_nil, or_false, not_or] at hk
  obtain ⟨hcode, hmessage, hdata⟩ := hk
  have hslot : ((slots r).find? fun f => f.name == k) = none := by
    simp [slots, field, Ne.symm hcode, Ne.symm hmessage, Ne.symm hdata]
  exact fromMembers_unknown hd hslot o raw closed rest e

end Fields

/-- Code and message are read wherever they stand, and the data decides whether the whole is a reply. -/
theorem fromMembers_slots {o : Origin} {code : Int} {message : Option String} {l : Fields}
    (hr : ∀ j, l.get? "data" = some j → ∀ d : Draft, d.Means j → r o d = r.ofJson j) (hl : Distinct l)
    {m : Members} (hm : m.Mean l) {seen : List String} (hseen : ∀ f ∈ l, f.1 ∈ fieldNames → f.1 ∉ seen)
    {e : Reply α} (hcode : l.readAt "error_code" int64 e.errorCode = .ok code)
    (hmessage : l.readAt "error_message" (Json.Reading.optional .string) e.errorMessage = .ok message) :
    fromMembers (slots r) o m seen e =
      (fun data => ⟨code, message, data⟩) <$> l.readAt "data" (Json.Reading.optional r) e.data := by
  induction l generalizing m seen e with
  | nil =>
    cases hm
    cases hcode
    cases hmessage
    rfl
  | cons f l ih =>
    obtain ⟨k, j⟩ := f
    cases hm with | @cons raw closed _ d rest _ _ hd hrest =>
    have hnew : k ∈ fieldNames → k ∉ seen := hseen (k, j) (List.mem_cons_self ..)
    have hlater : ∀ f ∈ l, f.1 ∈ fieldNames → f.1 ∉ seen := fun f hf => hseen f (List.mem_cons_of_mem _ hf)
    have hfresh (hk : k ∈ fieldNames) : ∀ f ∈ l, f.1 ∈ fieldNames → f.1 ∉ k :: seen := by
      intro f hf hn hmem
      rcases List.mem_cons.1 hmem with hfk | hmem
      · exact hl.absent hk f hf hfk
      · exact hlater f hf hn hmem
    -- the reader is asked for the data that is to come, if any
    have hdata : ∀ i, Fields.get? "data" l = some i → ∀ d : Draft, d.Means i → r o d = r.ofJson i := by
      intro i hi
      apply hr i
      by_cases hk : k = "data"
      · subst hk
        rw [Fields.get?_absent (hl.absent (by decide))] at hi
        cases hi
      · rwa [Fields.get?_later (Ne.symm hk)]
    replace ih {seen : List String} := @ih hdata (List.pairwise_cons.1 hl).2 rest hrest seen
    by_cases hkcode : k = "error_code"
    · subst hkcode
      have hk : "error_code" ∈ fieldNames := by decide
      rw [Fields.readAt_here] at hcode
      rw [Fields.readAt_later (by decide)] at hmessage
      rw [fromMembers_code hd (hnew hk), hcode, Fields.readAt_later (by decide)]
      exact ih (hfresh hk) (Fields.readAt_absent (hl.absent hk) _ _) hmessage
    rw [Fields.readAt_later (Ne.symm hkcode)] at hcode
    by_cases hkmessage : k = "error_message"
    · subst hkmessage
      have hk : "error_message" ∈ fieldNames := by decide
      rw [Fields.readAt_here] at hmessage
      rw [fromMembers_message hd (hnew hk), hmessage, Fields.readAt_later (by decide)]
      exact ih (hfresh hk) hcode (Fields.readAt_absent (hl.absent hk) _ _)
    rw [Fields.readAt_later (Ne.symm hkmessage)] at hmessage
    by_cases hkdata : k = "data"
    · subst hkdata
      have hk : "data" ∈ fieldNames := by decide
      have hread : r o d = r.ofJson j := hr j (by rw [Fields.get?, List.lookup_cons_self]) d hd
      rw [fromMembers_data hd hread (hnew hk), Fields.readAt_here]
      cases (Json.Reading.optional r).ofJson j with
      | error f => rfl
      | ok a =>
        refine (ih (hfresh hk) (e := { e with data := a }) hcode hmessage).trans ?_
        rw [Fields.readAt_absent (hl.absent hk)]
    · have hk : k ∉ fieldNames := by simp [fieldNames, hkcode, hkmessage, hkdata]
      rw [fromMembers_other hd hk, Fields.readAt_later (Ne.symm hkdata)]
      exact ih hlater hcode hmessage

/-- What may stand for a message: a text, or nothing for the empty one. -/
inductive Message : Option Json → String → Prop
  | absent : Message none ""
  | null : Message (some .null) ""
  | text (s : String) : Message (some (.str s)) s

/-- `text` is a JSON text of an object that brings a code, a message and what is given as its data. The object may
have other fields, and its fields come in any order. -/
def Says (text : Bytes) (code : Int) (message : String) (data : Option Json) : Prop :=
  ∃ fields : Fields, Json.Says text (.obj fields) ∧ Distinct fields ∧
    fields.get? "error_code" = some (.int code) ∧ isInt64 code ∧
    Message (fields.get? "error_message") message ∧ fields.get? "data" = data

theorem Message.read {fields : Fields} {message : String} (h : Message (fields.get? "error_message") message) :
    ∃ m : Option String, fields.readAt "error_message" (Json.Reading.optional .string) none = .ok m ∧
      m.getD "" = message := by
  rw [Fields.readAt]
  generalize fields.get? "error_message" = field at h
  cases h with
  | absent => exact ⟨none, rfl, rfl⟩
  | null => exact ⟨none, rfl, rfl⟩
  | text => exact ⟨some message, rfl, rfl⟩

variable {text : Bytes} {code : Int} {message : String} {data : Option Json}

/-- a reply of a code and a value, as it is written -/
theorem says_render (hc : isInt64 code) {v : Json} (hv : v.isIntegral) :
    Says (Text.toBytes (Json.obj [("data", v), ("error_code", .int code)]).render) code "" (some v) := by
  have hintegral : (Json.obj [("data", v), ("error_code", .int code)]).isIntegral := by
    simp only [Json.isIntegral, Json.fieldsIntegral, hv, Json.isIntegral_int hc, Bool.and_self]
  have hdistinct : Distinct [("data", v), ("error_code", .int code)] := by simp [Distinct]
  exact ⟨_, Json.says_render hintegral, hdistinct, rfl, hc, .absent, rfl⟩

/-- The reply that a text is read as, which fails only if its data cannot be read. -/
theorem Says.parse (h : Says text code message data)
    (hr : ∀ j, data = some j → ∀ d : Draft, d.Means j → r (.text 126) d = r.ofJson j) :
    ∃ m : Option String, m.getD "" = message ∧
      (reading r).parse text =
        (fun d => ⟨code, m, d⟩) <$> data.elim (.ok none) (Json.Reading.optional r).ofJson := by
  obtain ⟨fields, htext, hdistinct, hcode, hrange, hmessage, rfl⟩ := h
  obtain ⟨m, hread, hm⟩ := hmessage.read
  obtain ⟨d, hd, hparse⟩ := (reading r).exists_parse htext
  have hint : fields.readAt "error_code" int64 0 = .ok code := by
    rw [Fields.readAt, hcode]
    exact Json.Reading.integer_number (isInt64_iff.1 hrange) .value
  have hdata : fields.readAt "data" (Json.Reading.optional r) none =
      (fields.get? "data").elim (.ok none) (Json.Reading.optional r).ofJson := by
    rw [Fields.readAt]
    cases fields.get? "data" <;> rfl
  cases hd with | object hmembers =>
  have hfields : fromMembers (slots r) (.text 126) _ [] ⟨0, none, none⟩ = _ :=
    fromMembers_slots hr hdistinct hmembers (fun _ _ _ => List.not_mem_nil) hint hread
  rw [hdata] at hfields
  exact ⟨m, hm, hparse.trans hfields⟩

theorem content_of_ne {reply : Reply α} (h : reply.errorCode ≠ 0) :
    reply.content = .error (.server reply.errorCode (reply.errorMessage.getD "")) := if_pos h

/-- Whether there is room for a sealed text in the data: it is one, or nothing. -/
def holdsText : Option Json → Bool
  | none | some .null | some (.str _) => true
  | _ => false

theorem text_of_holdsText (h : holdsText data) :
    ∃ s, data.elim (.ok none) (Json.Reading.optional .string).ofJson = .ok s := by
  cases data with
  | none => exact ⟨none, rfl⟩
  | some j =>
    cases j with
    | null => exact ⟨none, rfl⟩
    | str s => exact ⟨some s, rfl⟩
    | bool _ | num _ | arr _ | obj _ => simp [holdsText] at h

/-- What is neither a text nor null makes the reply unreadable. -/
theorem fault_of_not_holdsText (h : ¬ holdsText data) :
    data.elim (.ok none) (Json.Reading.optional .string).ofJson = .error .mismatch := by
  cases data with
  | none => simp [holdsText] at h
  | some j =>
    cases j with
    | null | str _ => simp [holdsText] at h
    | num n => cases n <;> rfl
    | bool _ | arr _ | obj _ => rfl

end Reply

namespace Response

variable {α : Type} {r : Reading α} {secretKey : String} {response : Response}

theorem resolve_fault (hs : Status.isSuccess response.status) {f : Fault}
    (h : (Reply.reading .string).parse response.body = .error f) :
    response.resolve r secretKey = .error (.decode f) := by
  rw [resolve, h, hs]
  rfl

theorem resolve_server (hs : Status.isSuccess response.status) {reply : Reply String}
    (h : (Reply.reading .string).parse response.body = .ok reply) (hc : reply.errorCode ≠ 0) :
    response.resolve r secretKey = .error (.server reply.errorCode (reply.errorMessage.getD "")) := by
  have hcontent := Reply.content_of_ne hc
  rw [resolve, h, hs]
  simp only [Except.mapError, bind, Except.bind, hcontent]
  rfl

/-- The error that a reply brings is reported, unless the data beside it is neither a text nor null. The reply is then
taken for no reply at all. -/
theorem server_errors_are_reported {code : Int} {message : String} {data : Option Json}
    (hs : Status.isSuccess response.status) (hb : Reply.Says response.body code message data) (hc : code ≠ 0) :
    response.resolve r secretKey =
      .error (if Reply.holdsText data then .server code message else .decode .mismatch) := by
  obtain ⟨m, rfl, hparse⟩ := hb.parse (r := .string) fun j _ d hd => Json.Reading.string_of_means hd _
  by_cases hd : Reply.holdsText data
  · obtain ⟨s, htext⟩ := Reply.text_of_holdsText hd
    rw [htext] at hparse
    rw [if_pos hd]
    exact resolve_server hs hparse hc
  · rw [Reply.fault_of_not_holdsText hd] at hparse
    rw [if_neg hd]
    exact resolve_fault hs hparse

/-- a code and a message beside a text -/
theorem server_errors_are_reported_beside_text :
    let fields : Fields := [("data", .str "x"), ("error_code", .int (-1)), ("error_message", .str "nope")]
    let response : Response := ⟨200, Text.toBytes (Json.obj fields).render⟩
    Status.isSuccess response.status ∧ Reply.Says response.body (-1) "nope" (some (.str "x")) ∧ (-1 : Int) ≠ 0 ∧
      response.resolve Json.Reading.value "" = .error (.server (-1) "nope") := by
  intro fields response
  have hbody : Json.Says response.body (.obj fields) := Json.says_render (by decide)
  have hsays : Reply.Says response.body (-1) "nope" (some (.str "x")) :=
    ⟨fields, hbody, by decide, rfl, by decide, .text "nope", rfl⟩
  exact ⟨by decide, hsays, by decide, server_errors_are_reported (by decide) hsays (by decide)⟩

/-- An object as data masks the error: the reply says so, and is not understood. -/
theorem server_errors_masked_by_object :
    let fields : Fields := [("error_code", .int (-1)), ("error_message", .str "nope"), ("data", .obj [])]
    let response : Response := ⟨200, Text.toBytes (Json.obj fields).render⟩
    Status.isSuccess response.status ∧ Reply.Says response.body (-1) "nope" (some (.obj [])) ∧
      response.resolve Json.Reading.value "" ≠ .error (.server (-1) "nope") ∧
      response.resolve Json.Reading.value "" = .error (.decode .mismatch) := by
  intro fields response
  have hbody : Json.Says response.body (.obj fields) := Json.says_render (by decide)
  have hsays : Reply.Says response.body (-1) "nope" (some (.obj [])) :=
    ⟨fields, hbody, by decide, rfl, by decide, .text "nope", rfl⟩
  obtain ⟨m, -, hparse⟩ := hsays.parse (r := .string) fun j _ d hd => Json.Reading.string_of_means hd _
  have hfault : response.resolve Json.Reading.value "" = .error (.decode .mismatch) :=
    resolve_fault (by decide) (hparse.trans rfl)
  refine ⟨by decide, hsays, ?_, hfault⟩
  rw [hfault]
  rintro ⟨⟩

end Response

end ChatWire
