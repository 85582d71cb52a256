import ChatWire.Proofs.Json.Reading
import ChatWire.Proofs.Listener.Handling

/-! Where the items of a batch go: each wanted one to the stream of its kind, in the order of the batch, and a
report for each that is none. -/

namespace ChatWire

namespace Event

/-- Whether an event is an item that came from the account itself. -/
def isOwn : Event → Bool
  | .message m => m.isSelf
  | .undo u => u.isSelf
  | _ => false

end Event

namespace Item

def undo? : Item → Option Undo
  | .message _ => none
  | .undo u => some u

/-- who sent an item, as the server says it -/
def sender (raw : Json) : String :=
  match raw.asFields? with
  | some f => Lenient.textField f "uidFrom"
  | none => ""

variable (uid : String) (t : Thread)

theorem classify_object {raw : Json} {f : Fields} (h : raw.asFields? = some f) :
    ∃ i, classify uid t raw = .ok i ∧ i.isSelf = (sender raw == selfId) := by
  simp only [classify, MessageData.ofJson, h, sender, bind, Except.bind]
  cases undoOf? (MessageData.ofFields f).content with
  | none => exact ⟨_, rfl, rfl⟩
  | some u => exact ⟨_, rfl, rfl⟩

theorem classify_other {raw : Json} (h : raw.asFields? = none) : classify uid t raw = .error .mismatch := by
  simp only [classify, MessageData.ofJson, h, bind, Except.bind]

/-- What an item is, if it is one. -/
def ofRaw? (raw : Json) : Option Item := (classify uid t raw).toOption

end Item

namespace Batch

variable (uid : String) (t : Thread) (selfListen : Bool)

/-- Whether an item is to be passed on. -/
def wanted (raw : Json) : Bool := selfListen || Item.sender raw != Item.selfId

theorem refused_classify (l : List Json) :
    refused (l.map (Item.classify uid t)) = (l.filter fun raw => raw.asFields?.isNone).map fun _ => .mismatch := by
  induction l with
  | nil => rfl
  | cons raw r ih =>
    rw [List.map_cons]
    cases h : raw.asFields? with
    | none => simp [Item.classify_other uid t h, refused, ih, h]
    | some f =>
      obtain ⟨i, hi, -⟩ := Item.classify_object uid t h
      simp [hi, refused, ih, h]

theorem accepted_classify (l : List Json) :
    accepted (l.map (Item.classify uid t)) = l.filterMap (Item.ofRaw? uid t) := by
  induction l with
  | nil => rfl
  | cons raw r ih =>
    rw [List.map_cons, List.filterMap_cons, Item.ofRaw?]
    cases h : Item.classify uid t raw with
    | error f => simp only [accepted, ih, Except.toOption]
    | ok i => simp only [accepted, ih, Except.toOption]

theorem wanted_classify (l : List Json) :
    (accepted (l.map (Item.classify uid t))).filter (fun i => selfListen || !i.isSelf) =
      (l.filter (wanted selfListen)).filterMap (Item.ofRaw? uid t) := by
  rw [accepted_classify]
  induction l with
  | nil => rfl
  | cons raw r ih =>
    cases h : raw.asFields? with
    | none =>
      have hraw : Item.ofRaw? uid t raw = none := by rw [Item.ofRaw?, Item.classify_other uid t h]; rfl
      rw [List.filterMap_cons_none hraw, ih, List.filter_cons]
      split_ifs
      · rw [List.filterMap_cons_none hraw]
      · rfl
    | some f =>
      obtain ⟨i, hi, hself⟩ := Item.classify_object uid t h
      have hraw : Item.ofRaw? uid t raw = some i := by rw [Item.ofRaw?, hi]; rfl
      have hwant : (selfListen || !i.isSelf) = wanted selfListen raw := by rw [hself]; rfl
      rw [List.filterMap_cons_some hraw, List.filter_cons, List.filter_cons, hwant, ih]
      split_ifs
      · rw [List.filterMap_cons_some hraw]
      · rfl

/-- What is published for the items of a live batch. -/
structure Routed (l : List Json) (es : List Event) : Prop where
  messages : es.filterMap Event.message? =
    (l.filter (wanted selfListen)).filterMap fun raw => (Item.ofRaw? uid t raw).bind message?
  undos : es.filterMap Event.undo? =
    (l.filter (wanted selfListen)).filterMap fun raw => (Item.ofRaw? uid t raw).bind Item.undo?
  reports : es.filterMap Event.error? =
    (l.filter fun raw => raw.asFields?.isNone).map fun _ => .decode .messageBatch (.json .mismatch)
  nothingElse : ∀ e ∈ es, e.message?.isSome ∨ e.undo?.isSome ∨ e.error?.isSome

/-- What is published for the items of a batch of old messages. -/
structure Collected (l : List Json) (es : List Event) : Prop where
  oldMessages : es.filterMap Event.oldMessages? =
    [⟨t, l.filterMap fun raw => (Item.ofRaw? uid t raw).bind message?⟩]
  reports : es.filterMap Event.error? =
    (l.filter fun raw => raw.asFields?.isNone).map fun _ => .decode .oldMessages (.json .mismatch)
  nothingElse : ∀ e ∈ es, e.oldMessages?.isSome ∨ e.error?.isSome

theorem filterMap_reports {α : Type} (op : Operation) (l : List Json.Fault) {f : Event → Option α}
    (h : ∀ e, f (.error e) = none) :
    (l.map fun x => Event.error (.decode op (.json x))).filterMap f = [] := by
  simp [h]

theorem filterMap_error_reports (op : Operation) (l : List Json.Fault) :
    (l.map fun x => Event.error (.decode op (.json x))).filterMap Event.error? = l.map fun x => .decode op (.json x) := by
  induction l with
  | nil => rfl
  | cons x r ih =>
    rw [List.map_cons, List.map_cons, List.filterMap_cons, ih]
    rfl

theorem filterMap_liveEvent {α : Type} (l : List Item) {f : Event → Option α} {g : Item → Option α}
    (h : ∀ i, f (liveEvent i) = g i) : (l.map liveEvent).filterMap f = l.filterMap g := by
  rw [List.filterMap_map]
  exact List.filterMap_congr fun i _ => h i

theorem routed_liveEvents (b : Batch) : Routed uid t selfListen (b.items t) (liveEvents uid selfListen t b) := by
  simp only [liveEvents, classify, wanted_classify, refused_classify]
  constructor
  · rw [List.filterMap_append, filterMap_reports _ _ (fun _ => rfl), List.nil_append,
      filterMap_liveEvent (g := message?) _ (fun i => by cases i <;> rfl), List.filterMap_filterMap]
  · rw [List.filterMap_append, filterMap_reports _ _ (fun _ => rfl), List.nil_append,
      filterMap_liveEvent (g := Item.undo?) _ (fun i => by cases i <;> rfl), List.filterMap_filterMap]
  · rw [List.filterMap_append, filterMap_liveEvent (g := fun _ => none) _ (fun i => by cases i <;> rfl),
      filterMap_error_reports, List.filterMap_none, List.append_nil, List.map_map]
    rfl
  · intro e he
    rcases List.mem_append.1 he with he | he
    · obtain ⟨f, -, rfl⟩ := List.mem_map.1 he
      exact .inr (.inr rfl)
    · obtain ⟨i, -, rfl⟩ := List.mem_map.1 he
      cases i with
      | message m => exact .inl rfl
      | undo u => exact .inr (.inl rfl)

theorem collected_backfillEvents (b : Batch) : Collected uid t (b.items t) (backfillEvents uid t b) := by
  simp only [backfillEvents, classify, accepted_classify, refused_classify]
  constructor
  · rw [List.filterMap_append, filterMap_reports _ _ (fun _ => rfl), List.filterMap_filterMap]
    rfl
  · rw [List.filterMap_append, filterMap_error_reports, List.map_map]
    exact List.append_nil _
  · intro e he
    rcases List.mem_append.1 he with he | he
    · obtain ⟨f, -, rfl⟩ := List.mem_map.1 he
      exact .inr rfl
    · rw [List.mem_singleton.1 he]
      exact .inl rfl

/-- Without own items, the events are those with them that are not own. -/
theorem liveEvents_not_self (b : Batch) :
    liveEvents uid false t b = (liveEvents uid true t b).filter fun e => !e.isOwn := by
  have hown : ((fun e : Event => !e.isOwn) ∘ liveEvent) = fun i => !i.isSelf := by
    funext i
    cases i <;> rfl
  simp only [liveEvents, List.filter_append, List.filter_map, hown, Bool.true_or, Bool.false_or, List.filter_true]
  congr 1
  simp [Event.isOwn, Function.comp_def]

end Batch

namespace Listener

variable {world : Surroundings} {parent : Token} {link : Nat}

/-- The listener as it would be if own items were wanted, or not. -/
def listening (selfListen : Bool) (l : Listener) : Listener := { l with session := { l.session with selfListen } }

@[simp] theorem connection_listening (v : Bool) (l : Listener) : (l.listening v).connection = l.connection := rfl

@[simp] theorem cipherKey?_listening (v : Bool) (l : Listener) : (l.listening v).cipherKey? = l.cipherKey? := rfl

theorem rekey_listening (v : Bool) (key : CipherKey) (c : Connection) (l : Listener) :
    (l.listening v).rekey key c = ((l.rekey key c).1, (l.rekey key c).2.listening v) := by
  unfold rekey
  cases c.keepalive <;> by_cases hp : l.session.settings.pingInterval = 0 <;>
    simp only [listening, cancel, hp, if_true, if_false]

/-- Whether own items are wanted decides about what is published and nothing else. -/
theorem absorb_listening (link : Nat) (v : Bool) (b : Bytes) (l : Listener) :
    ∃ s h, (l.listening v).absorb link b = ((l.absorb link b).listening v).withPast s h := by
  simp only [absorb, handle]
  cases Reaction.ofBytes b with
  | ignore | leave => exact ⟨l.events, l.history, rfl⟩
  | report | live | backfill =>
    simp only [publishAll_eq]
    exact ⟨_, _, rfl⟩
  | rekey key =>
    rw [connection_listening]
    cases l.connection with
    | none => exact ⟨l.events, l.history, rfl⟩
    | some c =>
      simp only [rekey_listening, publishAll_eq]
      cases (l.rekey key c).1 <;> exact ⟨_, _, rfl⟩

theorem eventsOf_listening (b : Bytes) (l : Listener) :
    (l.listening false).eventsOf b = ((l.listening true).eventsOf b).filter fun e => !e.isOwn := by
  simp only [eventsOf, handle]
  cases Reaction.ofBytes b with
  | ignore | leave | report => rfl
  | live t e =>
    simp only [Chain.owed, batchEvents, cipherKey?_listening]
    cases e.decode Batch.reading l.cipherKey? with
    | error f => rfl
    | ok batch => exact Batch.liveEvents_not_self _ t batch
  | backfill t e =>
    simp only [Chain.owed, batchEvents, cipherKey?_listening]
    cases e.decode Batch.reading l.cipherKey? with
    | error f => rfl
    | ok batch =>
      symm
      apply List.filter_eq_self.2
      intro x hx
      cases x with
      | message | undo =>
        have := (Batch.collected_backfillEvents _ t batch).nothingElse _ hx
        simp [Event.oldMessages?, Event.error?] at this
      | _ => rfl
  | rekey key =>
    rw [connection_listening, connection_listening]
    cases l.connection <;> rfl

theorem eventsOfAll_listening (xs : List Bytes) (l : Listener) :
    (l.listening false).eventsOfAll link xs =
      ((l.listening true).eventsOfAll link xs).filter fun e => !e.isOwn := by
  induction xs generalizing l with
  | nil => rfl
  | cons b r ih =>
    obtain ⟨s, h, hoff⟩ := absorb_listening link false b l
    obtain ⟨s', h', hon⟩ := absorb_listening link true b l
    rw [eventsOfAll, eventsOfAll, eventsOf_listening, hoff, hon, eventsOfAll_withPast, eventsOfAll_withPast, ih,
      List.filter_append]

theorem handles_single (world : Surroundings) (parent : Token) (link : Nat) {b : Bytes} {l : Listener}
    {es : List Event} (h : ∀ link, l.handle link b = (.publishing link es none, l)) :
    Handles world parent link [b] l (l.publishAll es) ∧ (l.publishAll es).history = l.history ++ es ∧
      Events.Takes es l.events (l.publishAll es).events := by
  have hstep : l.stepChain world parent .proceed (.handling link b) = some (.publishing link es none, l) :=
    congrArg some (h link)
  refine ⟨.next (.step rfl hstep (works_publishing es none l)) (.done _), ?_, takes_publishAll es l⟩
  rw [publishAll_eq]

/-- A batch that can be decoded is published item by item if it is live and as a whole if it is not. Whether own
items are wanted or not, the same is published, but for the own items. Each stream takes what is published to it. -/
theorem batches_are_routed (world : Surroundings) (parent : Token) (link : Nat) (l : Listener) :
    (∀ {b f e t batch}, Frame.decode? b = some f → f.kind = .messages t → Envelope.parse f.body = .ok e →
      e.errorCode = 0 → e.decode Batch.reading l.cipherKey? = .ok batch →
        ∃ m es, Handles world parent link [b] l m ∧ m.history = l.history ++ es ∧ Events.Takes es l.events m.events ∧
          Batch.Routed l.session.uid t l.session.selfListen (batch.items t) es) ∧
    (∀ {b f e t batch}, Frame.decode? b = some f → f.kind = .oldMessages t → Envelope.parse f.body = .ok e →
      e.errorCode = 0 → e.decode Batch.reading l.cipherKey? = .ok batch →
        ∃ m es, Handles world parent link [b] l m ∧ m.history = l.history ++ es ∧ Events.Takes es l.events m.events ∧
          Batch.Collected l.session.uid t (batch.items t) es) ∧
    ∀ xs, ∃ m m' es, Handles world parent link xs (l.listening false) m ∧
      Handles world parent link xs (l.listening true) m' ∧
        m'.history = l.history ++ es ∧ Events.Takes es l.events m'.events ∧
          m.history = l.history ++ (es.filter fun e => !e.isOwn) ∧
            Events.Takes (es.filter fun e => !e.isOwn) l.events m.events := by
  refine ⟨?_, ?_, ?_⟩
  · intro b f e t batch hf hkind hparse hcode hbatch
    have hlive := handle_live (l := l) (Reaction.ofBytes_messages hf hkind hparse hcode)
    rw [batchEvents_ok _ _ hbatch] at hlive
    obtain ⟨hm, hhist, htakes⟩ := handles_single world parent link hlive
    exact ⟨_, _, hm, hhist, htakes, Batch.routed_liveEvents _ t _ batch⟩
  · intro b f e t batch hf hkind hparse hcode hbatch
    have hold := handle_backfill (l := l) (Reaction.ofBytes_oldMessages hf hkind hparse hcode)
    rw [batchEvents_ok _ _ hbatch] at hold
    obtain ⟨hm, hhist, htakes⟩ := handles_single world parent link hold
    exact ⟨_, _, hm, hhist, htakes, Batch.collected_backfillEvents _ t batch⟩
  · intro xs
    obtain ⟨heeded, -, hhandles⟩ := exists_handles world parent link xs
    have hown : (l.listening false).eventsOfAll link heeded =
        ((l.listening true).eventsOfAll link heeded).filter fun e => !e.isOwn := eventsOfAll_listening heeded l
    refine ⟨_, _, _, hhandles _, hhandles _, history_absorbAll heeded _, takes_absorbAll heeded _, ?_, ?_⟩
    · rw [history_absorbAll, hown]
      rfl
    · rw [← hown]
      exact takes_absorbAll heeded _

/-- An item of somebody else, a number, and an own item. -/
theorem batches_are_routed_mixed :
    let world : Surroundings := ⟨fun _ _ => ⟨0, none⟩, fun _ => 0⟩
    let l := plainListener "7" false
    let items : List Json := [.obj [("uidFrom", .str "5")], .int 1, .obj [("uidFrom", .str "0")]]
    let e := Envelope.plain (.obj [("data", .obj [("msgs", .arr items)])])
    let frame (h : Header) : Frame := ⟨h, Text.toBytes e.render⟩
    Envelope.parse (Text.toBytes e.render) = .ok e ∧ (∃ m es,
      Handles world ⟨[]⟩ 0 [(frame (.messages .user)).encode] l m ∧ m.history = l.history ++ es ∧
        Events.Takes es l.events m.events ∧ Batch.Routed "7" .user false items es) ∧
      ∃ m es, Handles world ⟨[]⟩ 0 [(frame (.oldMessages .user)).encode] l m ∧ m.history = l.history ++ es ∧
        Events.Takes es l.events m.events ∧ Batch.Collected "7" .user items es := by
  intro world l items e frame
  obtain ⟨hlive, hold, -⟩ := batches_are_routed world ⟨[]⟩ 0 l
  have hparse : Envelope.parse (Text.toBytes e.render) = .ok e := by
    rw [Envelope.parse, Envelope.render, Json.renderInOrder, Json.Reading.parse_render _ (by decide)]
    rfl
  have hdecode : e.decode Batch.reading none = .ok ⟨items, []⟩ := by rfl
  -- for any body, so that the bytes of this one are not looked at
  have hbody {body : Bytes} (h : Envelope.parse body = .ok e) :=
    And.intro (hlive (Frame.decode?_encode ⟨.messages .user, body⟩) rfl h rfl hdecode)
      (hold (Frame.decode?_encode ⟨.oldMessages .user, body⟩) rfl h rfl hdecode)
  exact ⟨hparse, hbody hparse⟩

end Listener

end ChatWire
