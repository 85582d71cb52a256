import ChatWire.Proofs.Json.Reading
import ChatWire.Proofs.Listener.Leading

/-! Keys over whole runs. A payload is handled with the key that was last given on its own connection, and what
is published for a batch is what that key makes of it. -/

namespace ChatWire

namespace Reaction

/-- Whether a payload brings a batch: what is done with it is called `op`, and `events` are those of the batch. -/
inductive BringsBatch (session : Session) (b : Bytes) : Operation → (Batch → List Event) → Envelope → Prop
  | live {f : Frame} {e : Envelope} {t : Thread} : Frame.decode? b = some f → f.kind = .messages t →
      Envelope.parse f.body = .ok e → e.errorCode = 0 →
      BringsBatch session b .messageBatch (Batch.liveEvents session.uid session.selfListen t) e
  | backfill {f : Frame} {e : Envelope} {t : Thread} : Frame.decode? b = some f → f.kind = .oldMessages t →
      Envelope.parse f.body = .ok e → e.errorCode = 0 →
      BringsBatch session b .oldMessages (Batch.backfillEvents session.uid t) e

end Reaction

namespace Batch

theorem isBatch_of_mem_liveEvents {uid : String} {selfListen : Bool} {t : Thread} {b : Batch} {e : Event}
    (h : e ∈ liveEvents uid selfListen t b) : e.isBatch := by
  rcases List.mem_append.1 h with h | h
  · obtain ⟨f, -, rfl⟩ := List.mem_map.1 h
    rfl
  · obtain ⟨i, -, rfl⟩ := List.mem_map.1 h
    cases i <;> rfl

theorem isBatch_of_mem_backfillEvents {uid : String} {t : Thread} {b : Batch} {e : Event}
    (h : e ∈ backfillEvents uid t b) : e.isBatch := by
  rcases List.mem_append.1 h with h | h
  · obtain ⟨f, -, rfl⟩ := List.mem_map.1 h
    rfl
  · rw [List.mem_singleton.1 h]
    rfl

end Batch

/-- All events of a batch tell of it. -/
theorem Reaction.BringsBatch.isBatch {session : Session} {b : Bytes} {op : Operation} {events : Batch → List Event}
    {e : Envelope} (h : BringsBatch session b op events e) (key : Option CipherKey) :
    (batchEvents op events e key).filter Event.isBatch = batchEvents op events e key := by
  rw [List.filter_eq_self]
  intro x hx
  cases hdecode : e.decode Batch.reading key with
  | error f =>
    rw [batchEvents_error _ _ hdecode, List.mem_singleton] at hx
    subst hx
    cases h <;> rfl
  | ok batch =>
    rw [batchEvents_ok _ _ hdecode] at hx
    cases h with
    | live => exact Batch.isBatch_of_mem_liveEvents hx
    | backfill => exact Batch.isBatch_of_mem_backfillEvents hx

theorem Envelope.decode_missingKey {α : Type} (r : Json.Reading α) {e : Envelope}
    (h : e.tag = Encryption.sealedGzip.tag ∨ e.tag = Encryption.sealedRaw.tag) :
    e.decode r none = .error .missingKey := by
  rcases h with h | h <;> simp only [decode, Encryption.ofTag?_eq_some_iff.2 h.symm] <;> rfl

namespace Listener

/-! Notes of a run. -/

/-- Which payload of which link a task handled, and with which key; and what a task published. -/
inductive Act
  | handled (task link : Nat) (payload : Bytes) (key : Option CipherKey)
  | published (task : Nat) (e : Event)

/-- what is noted of a move from `l` to `k` -/
def acts (m : Move) (l k : Listener) : List Act :=
  match m with
  | .work n _ =>
    (match l.work[n]? with
      | some (.chain _ (.handling link b)) => [Act.handled n link b l.cipherKey?]
      | _ => []) ++ (k.history.drop l.history.length).map (Act.published n)
  | _ => []

/-- The runs of a listener from its creation on, with their notes. -/
inductive Traced (world : Surroundings) (session : Session) : List Act → Listener → Prop
  | start : Traced world session [] (create session)
  | step {log : List Act} {l k : Listener} {m : Move} : Traced world session log l → l.step world m = some k →
      Traced world session (log ++ acts m l k) k

def Act.event? : Act → Option Event
  | .handled .. => none
  | .published _ e => some e

def Act.keyOn? (link : Nat) : Act → Option CipherKey
  | .handled _ on b _ => if on = link then Reaction.keyOf? b else none
  | .published .. => none

/-- the last key that a payload of the link has brought -/
def keyOn (log : List Act) (link : Nat) : Option CipherKey := (log.filterMap (Act.keyOn? link)).getLast?

/-- What task `n` publishes until it handles another payload; `rest` is what it publishes after the notes. -/
def yields (n : Nat) (rest : List Event) : List Act → List Event
  | [] => rest
  | .handled m _ _ _ :: r => if m = n then [] else yields n rest r
  | .published m e :: r => if m = n then e :: yields n rest r else yields n rest r

/-- the events that task `n` is about to publish -/
def owedBy (n : Nat) (l : Listener) : List Event := ((l.work[n]?).map Work.owed).getD []

theorem keyOn_published (log : List Act) (n : Nat) (es : List Event) :
    keyOn (log ++ es.map (Act.published n)) = keyOn log := by
  funext link
  have hnone : (es.map (Act.published n)).filterMap (Act.keyOn? link) = [] := by simp [Act.keyOn?]
  rw [keyOn, List.filterMap_append, hnone, List.append_nil, keyOn]

theorem keyOn_handled (log : List Act) (n link : Nat) (b : Bytes) (key : Option CipherKey) :
    keyOn (log ++ [.handled n link b key]) = giveKey link b (keyOn log) := by
  funext on
  simp only [keyOn, giveKey, List.filterMap_append, List.getLast?_append, List.filterMap_cons, List.filterMap_nil,
    Act.keyOn?]
  cases hkey : Reaction.keyOf? b with
  | none => split_ifs <;> simp [keyOn]
  | some key =>
    by_cases hon : link = on
    · subst hon
      simp [Function.update_self]
    · simp [hon, keyOn, Function.update_of_ne (Ne.symm hon)]

theorem yields_append (n : Nat) (rest : List Event) (a b : List Act) :
    yields n rest (a ++ b) = yields n (yields n rest b) a := by
  induction a with
  | nil => rfl
  | cons x a ih => cases x <;> simp only [List.cons_append, yields, ih]

theorem yields_published (n : Nat) (rest es : List Event) :
    yields n rest (es.map (Act.published n)) = es ++ rest := by
  induction es with
  | nil => rfl
  | cons e r ih => simp only [List.map_cons, yields, if_true, ih, List.cons_append]

theorem yields_other {n m : Nat} (h : n ≠ m) (rest es : List Event) :
    yields m rest (es.map (Act.published n)) = rest := by
  induction es with
  | nil => rfl
  | cons e r ih => simp only [List.map_cons, yields, h, if_false, ih]

/-- What is published later comes after what is noted. -/
theorem yields_initial (n : Nat) (rest : List Event) (log : List Act) : yields n [] log <+: yields n rest log := by
  induction log with
  | nil => exact List.nil_prefix
  | cons x r ih =>
    cases x with
    | handled m =>
      simp only [yields]
      split_ifs
      · exact List.nil_prefix
      · exact ih
    | published m e =>
      simp only [yields]
      split_ifs
      · exact List.cons_prefix_cons.2 ⟨rfl, ih⟩
      · exact ih

/-- One task publishes no more than all of them. -/
theorem yields_sublist (n : Nat) (log : List Act) : (yields n [] log).Sublist (log.filterMap Act.event?) := by
  induction log with
  | nil => exact List.Sublist.refl _
  | cons x r ih =>
    cases x with
    | handled m =>
      simp only [yields]
      split_ifs
      · exact List.nil_sublist _
      · exact ih
    | published m e =>
      simp only [yields]
      split_ifs
      · exact ih.cons_cons e
      · exact ih.cons e

theorem filterMap_published (n : Nat) (es : List Event) : (es.map (Act.published n)).filterMap Act.event? = es := by
  rw [List.filterMap_map]
  exact List.filterMap_some

/-- What is left out of the rest is left out of the whole. -/
theorem filter_yields (n : Nat) {rest rest' : List Event} (h : rest.filter Event.isBatch = rest'.filter Event.isBatch)
    (log : List Act) : (yields n rest log).filter Event.isBatch = (yields n rest' log).filter Event.isBatch := by
  induction log with
  | nil => exact h
  | cons x r ih =>
    cases x with
    | handled m =>
      simp only [yields]
      split_ifs
      · rfl
      · exact ih
    | published m e =>
      simp only [yields]
      split_ifs
      · rw [List.filter_cons, List.filter_cons, ih]
      · exact ih

variable {world : Surroundings} {session : Session} {log : List Act} {l k : Listener} {m : Move}

/-- A move is a step of a task, or it leaves the connection alone, or it brings a task that has not begun. -/
theorem step_cases (h : l.step world m = some k) :
    (∃ n c w w' k', m = .work n c ∧ l.work[n]? = some w ∧ WorkStep world l w w' k' ∧ k = k'.setTask n w') ∨
    acts m l k = [] ∧ (Quiet [] l k ∨
      ∃ v : Work, v.isActive = false ∧ v.owed = [] ∧ v.complaint? = none ∧ k = { l with work := l.work ++ [v] }) := by
  cases m with
  | reader n c =>
    simp only [step, Option.bind_eq_bind, Option.bind_eq_some_iff, Option.some.injEq] at h
    obtain ⟨t, -, t', -, rfl⟩ := h
    exact .inr ⟨rfl, .inl (.setLink ..)⟩
  | writer n c =>
    simp only [step, Option.bind_eq_bind, Option.bind_eq_some_iff, Option.some.injEq] at h
    obtain ⟨t, -, t', -, rfl⟩ := h
    exact .inr ⟨rfl, .inl (.setLink ..)⟩
  | work n c =>
    simp only [step, Option.bind_eq_bind, Option.bind_eq_some_iff, Option.some.injEq] at h
    obtain ⟨w, hw, ⟨w', k'⟩, hstep, rfl⟩ := h
    exact .inl ⟨n, c, w, w', k', rfl, hw, stepWork_cases hstep, rfl⟩
  | start token retryOnClose =>
    cases Option.some.inj h
    exact .inr ⟨rfl, .inr ⟨_, rfl, rfl, rfl, rfl⟩⟩
  | stop =>
    cases Option.some.inj h
    exact .inr ⟨rfl, .inr ⟨_, rfl, rfl, rfl, rfl⟩⟩
  | cancel token =>
    cases Option.some.inj h
    exact .inr ⟨rfl, .inl (.cancel ..)⟩
  | send header data stamp =>
    cases Option.some.inj h
    exact .inr ⟨rfl, .inl (.send ..)⟩
  | peerSend n f =>
    cases Option.some.inj h
    exact .inr ⟨rfl, .inl (.relink (List.length_modify ..))⟩
  | peerVanish n =>
    cases Option.some.inj h
    exact .inr ⟨rfl, .inl (.relink (List.length_modify ..))⟩
  | fault f =>
    cases Option.some.inj h
    exact .inr ⟨rfl, .inl ⟨.same rfl rfl, rfl, rfl, rfl, List.length_map .., fun _ h => h, rfl⟩⟩
  | wait ms =>
    cases Option.some.inj h
    exact .inr ⟨rfl, .inl ⟨.same rfl rfl, rfl, rfl, rfl, rfl, fun _ h => h, rfl⟩⟩

/-- What holds of a run: each payload was handled with the key of its link, and of each batch all is published
or still owed, as long as its task has not gone on to another payload. What was published is in the streams. -/
structure Kept (session : Session) (log : List Act) (l : Listener) : Prop where
  same : l.session = session
  sound : ∀ w ∈ l.work, w.IsSound
  led : Led (keyOn log) l
  holds : l.events.Holds Events.defaultCapacity (log.filterMap Act.event?)
  key : ∀ {before after : List Act} {n link : Nat} {b : Bytes} {key : Option CipherKey},
    log = before ++ .handled n link b key :: after → key = keyOn before link
  paid : ∀ {before after : List Act} {n link : Nat} {b : Bytes} {key : Option CipherKey},
    log = before ++ .handled n link b key :: after → ∀ {op events e}, Reaction.BringsBatch session b op events e →
      (yields n (l.owedBy n) after).filter Event.isBatch = batchEvents op events e key

theorem kept_create (session : Session) : Kept session [] (create session) where
  same := rfl
  sound _ h := absurd h List.not_mem_nil
  led := Led.of_unique 0 (fun _ _ h => by cases h) fun _ _ => rfl
  holds := .empty _
  key h := by simp at h
  paid h := by simp at h

/-- A move of which nothing is noted keeps what is owed. -/
theorem Kept.silent (h : Kept session log l) (hsession : k.session = l.session) (hpublishes : Publishes [] l k)
    (hsound : ∀ w ∈ k.work, w.IsSound) (hled : Led (keyOn log) k) (howed : ∀ n, k.owedBy n = l.owedBy n) :
    Kept session log k where
  same := hsession.trans h.same
  sound := hsound
  led := hled
  holds := List.append_nil (log.filterMap Act.event?) ▸ hpublishes.holds h.holds
  key := h.key
  paid {before after n link b key} heq op events e hb := by
    rw [howed]
    exact h.paid heq hb

theorem owedBy_append {v : Work} (hv : v.owed = []) (n : Nat) (l : Listener) :
    owedBy n { l with work := l.work ++ [v] } = l.owedBy n := by
  simp only [owedBy, List.getElem?_append]
  split_ifs with hlt
  · rfl
  · rw [List.getElem?_eq_none (Nat.le_of_not_lt hlt), List.getElem?_singleton]
    split_ifs
    · exact hv
    · rfl

theorem Led.append (h : Led (keyOn log) l) {v : Work} (hv : v.isActive = false) :
    Led (keyOn log) { l with work := l.work ++ [v] } := by
  apply h.quiet_work (.refl l)
  intro i w hi hw
  rw [List.getElem?_append] at hi
  split_ifs at hi with hlt
  · exact hi
  · rw [List.getElem?_singleton] at hi
    split_ifs at hi
    rw [← Option.some.inj hi, hv] at hw
    cases hw

theorem owedBy_set_self {n : Nat} {w : Work} (h : n < l.work.length) :
    owedBy n (l.setTask n w) = w.owed := by
  simp only [owedBy, setTask, List.getElem?_set_self h, Option.map_some, Option.getD_some]

theorem owedBy_set_ne {n i : Nat} {w : Work} (h : n ≠ i) : owedBy i (l.setTask n w) = l.owedBy i := by
  simp only [owedBy, setTask, List.getElem?_set_ne h]

theorem owedBy_of_emits {es : List Event} {spawned : List Work} (h : Emits es spawned l k)
    (hspawned : ∀ v ∈ spawned, v.owed = []) (i : Nat) : k.owedBy i = l.owedBy i := by
  rw [owedBy, owedBy, h.work, List.getElem?_append]
  split_ifs with hlt
  · rfl
  · rw [List.getElem?_eq_none (Nat.le_of_not_lt hlt)]
    cases hv : spawned[i - l.work.length]? with
    | none => rfl
    | some v => exact hspawned v (List.mem_of_getElem? hv)

theorem acts_handling {n link : Nat} {b : Bytes} {c : Choice} {parent : Token}
    (hn : l.work[n]? = some (.chain parent (.handling link b))) (hhist : k.history = l.history) :
    acts (.work n c) l k = [.handled n link b l.cipherKey?] := by
  simp [acts, hn, hhist]

theorem acts_other {n : Nat} {c : Choice} {w : Work} {es : List Event} (hn : l.work[n]? = some w)
    (hw : w.isHandling = false) (hhist : k.history = l.history ++ es) :
    acts (.work n c) l k = es.map (.published n) := by
  simp only [acts, hn, hhist, List.drop_left]
  split
  · next heq =>
    cases heq
    cases hw
  · rfl

/-- An entry for a payload stands before what is published later. -/
theorem split_published {n i link : Nat} {es : List Event} {b : Bytes} {key : Option CipherKey}
    {before after : List Act} (h : log ++ es.map (.published n) = before ++ .handled i link b key :: after) :
    ∃ a, log = before ++ .handled i link b key :: a ∧ after = a ++ es.map (.published n) := by
  rcases List.append_eq_append_iff.1 h with ⟨a, -, hes⟩ | ⟨a, hlog, hafter⟩
  · have hmem : Act.handled i link b key ∈ es.map (Act.published n) := by
      rw [hes]
      exact List.mem_append_right _ (List.mem_cons_self ..)
    obtain ⟨e, -, he⟩ := List.mem_map.1 hmem
    cases he
  · cases a with
    | nil =>
      cases es with
      | nil => cases hafter
      | cons e r => cases hafter
    | cons x a =>
      obtain ⟨rfl, rfl⟩ := List.cons.inj hafter
      exact ⟨a, hlog, rfl⟩

/-- A step of a task that is not handling a payload. -/
theorem Kept.publish {n : Nat} {c : Choice} {w w' : Work} (h : Kept session log l) (hn : l.work[n]? = some w)
    (hw : w.isHandling = false) (hstep : WorkStep world l w w' k) :
    Kept session (log ++ acts (.work n c) l (k.setTask n w')) (k.setTask n w') := by
  obtain ⟨es, spawned, hemits, hspawned, hsound, howed⟩ := hstep.conserves (h.sound w (List.mem_of_getElem? hn))
  have hlt : n < k.work.length := by
    have := (List.getElem?_eq_some_iff.1 hn).1
    rw [hemits.work, List.length_append]
    omega
  have hled := h.led.step (h.sound w (List.mem_of_getElem? hn)) hn hstep
  rw [Work.gives_of_isHandling_eq_false hw] at hled
  have hpays (i : Nat) : (yields i (owedBy i (k.setTask n w')) (es.map (.published n))).filter
      Event.isBatch = (l.owedBy i).filter Event.isBatch := by
    by_cases hi : n = i
    · subst hi
      rw [yields_published, owedBy_set_self hlt, ← howed hw, owedBy, hn]
      rfl
    · rw [yields_other hi, owedBy_set_ne hi, owedBy_of_emits hemits fun v hv => (hspawned v hv).1]
  have hacts : acts (.work n c) l (k.setTask n w') = es.map (.published n) := acts_other hn hw hemits.history
  rw [hacts]
  refine ⟨hemits.session.trans h.same, ?_, ?_, ?_, ?_, ?_⟩
  · intro v hv
    rcases List.mem_or_eq_of_mem_set hv with hv | rfl
    · rw [hemits.work] at hv
      rcases List.mem_append.1 hv with hv | hv
      · exact h.sound v hv
      · exact (hspawned v hv).2.1
    · exact hsound
  · rw [keyOn_published]
    exact hled
  · rw [List.filterMap_append, filterMap_published]
    exact hemits.holds h.holds
  · intro before after i link b key heq
    obtain ⟨a, ha, -⟩ := split_published heq
    exact h.key ha
  · intro before after i link b key heq op events e hb
    obtain ⟨a, ha, rfl⟩ := split_published heq
    rw [yields_append, filter_yields i (hpays i)]
    exact h.paid ha hb

/-- A batch is owed as the key of the connection makes it. -/
theorem owed_handle (link : Nat) {b : Bytes} {op : Operation} {events : Batch → List Event} {e : Envelope}
    (h : Reaction.BringsBatch l.session b op events e) :
    (l.handle link b).1.owed = batchEvents op events e l.cipherKey? := by
  cases h with
  | live hf hkind hparse hcode => rw [handle_live (Reaction.ofBytes_messages hf hkind hparse hcode)]; rfl
  | backfill hf hkind hparse hcode => rw [handle_backfill (Reaction.ofBytes_oldMessages hf hkind hparse hcode)]; rfl

/-- The entry of a payload that is handled now is the last one. -/
theorem split_handled {n i link on : Nat} {b x : Bytes} {key key' : Option CipherKey} {before after : List Act}
    (h : log ++ [.handled n link b key] = before ++ .handled i on x key' :: after) :
    (∃ a, log = before ++ .handled i on x key' :: a ∧ after = a ++ [.handled n link b key]) ∨
      log = before ∧ after = [] ∧ i = n ∧ on = link ∧ x = b ∧ key' = key := by
  rcases List.append_eq_append_iff.1 h with ⟨a, hbefore, hlast⟩ | ⟨a, hlog, hafter⟩
  · cases a with
    | nil =>
      cases hlast
      exact .inr ⟨by simpa using hbefore.symm, rfl, rfl, rfl, rfl, rfl⟩
    | cons y a => simp at hlast
  · cases a with
    | nil =>
      cases hafter
      exact .inr ⟨by simpa using hlog, rfl, rfl, rfl, rfl, rfl⟩
    | cons y a =>
      obtain ⟨rfl, rfl⟩ := List.cons.inj hafter
      exact .inl ⟨a, hlog, rfl⟩

/-- The step in which a payload is handled. -/
theorem Kept.handle (world : Surroundings) {n link : Nat} {b : Bytes} {c : Choice} {parent : Token} {chain : Chain}
    (h : Kept session log l) (hn : l.work[n]? = some (.chain parent (.handling link b)))
    (hhandle : l.handle link b = (chain, k)) :
    Kept session (log ++ acts (.work n c) l (k.setTask n (.chain parent chain)))
      (k.setTask n (.chain parent chain)) := by
  have hstep : WorkStep world l (.chain parent (.handling link b)) (.chain parent chain) k := .chain (.handle hhandle)
  have hled := h.led.step (h.sound _ (List.mem_of_getElem? hn)) hn hstep
  have hemits := handle_emits link b l
  have hsound := handle_isSound parent link b l
  rw [hhandle] at hemits hsound
  have hwork : k.work = l.work := hemits.work.trans (List.append_nil _)
  have hlt : n < k.work.length := hwork ▸ (List.getElem?_eq_some_iff.1 hn).1
  have hkey : l.cipherKey? = keyOn log link := cipherKey?_of_held (h.led.place hn rfl).2.2
  have hpays (i : Nat) : yields i (owedBy i (k.setTask n (.chain parent chain)))
      [.handled n link b l.cipherKey?] = l.owedBy i := by
    by_cases hi : n = i
    · subst hi
      simp only [yields, if_true, owedBy, hn, Option.map_some, Option.getD_some]
      rfl
    · simp only [yields, hi, if_false]
      rw [owedBy_set_ne hi, owedBy, owedBy, hwork]
  have hacts : acts (.work n c) l (k.setTask n (.chain parent chain)) = [.handled n link b l.cipherKey?] :=
    acts_handling hn (hemits.history.trans (List.append_nil _))
  rw [hacts]
  refine ⟨hemits.session.trans h.same, ?_, ?_, ?_, ?_, ?_⟩
  · intro v hv
    rcases List.mem_or_eq_of_mem_set hv with hv | rfl
    · exact h.sound v (hwork ▸ hv)
    · exact hsound
  · rw [keyOn_handled]
    exact hled
  · rw [List.filterMap_append]
    exact hemits.holds h.holds
  · intro before after i on x key' heq
    rcases split_handled heq with ⟨a, ha, -⟩ | ⟨rfl, -, -, rfl, -, rfl⟩
    · exact h.key ha
    · exact hkey
  · intro before after i on x key' heq op events e hb
    rcases split_handled heq with ⟨a, ha, rfl⟩ | ⟨rfl, rfl, rfl, rfl, rfl, rfl⟩
    · rw [yields_append, hpays]
      exact h.paid ha hb
    · have howed := owed_handle on (h.same ▸ hb)
      rw [hhandle] at howed
      rw [yields, owedBy_set_self hlt, Work.owed, howed]
      exact hb.isBatch _

theorem kept_of_traced (h : Traced world session log l) : Kept session log l := by
  induction h with
  | start => exact kept_create session
  | @step log l k m _ hstep ih =>
    rcases step_cases hstep with ⟨n, c, w, w', k', rfl, hn, hwork, rfl⟩ | ⟨hacts, hk⟩
    · cases hw : w.isHandling with
      | false => exact ih.publish hn hw hwork
      | true =>
        cases hwork with
        | chain hchain =>
          cases hchain with
          | handle hhandle => exact ih.handle world hn hhandle
          | _ => cases hw
        | _ => cases hw
    · rw [hacts, List.append_nil]
      rcases hk with hq | ⟨v, hidle, howed, hfree, rfl⟩
      · refine ih.silent hq.session hq.toPublishes (hq.work ▸ ih.sound) (ih.led.quiet hq) ?_
        intro n
        rw [owedBy, owedBy, hq.work]
      · refine ih.silent rfl (.same rfl rfl) ?_ (ih.led.append hidle) fun n => owedBy_append howed n l
        intro w hw
        rcases List.mem_append.1 hw with hw | hw
        · exact ih.sound w hw
        · rw [List.mem_singleton.1 hw]
          exact isSound_of_complaint?_eq_none hfree

/-- Whatever happens to a listener, each payload is handled with the key that was last given on its own connection,
or with none. What its task publishes of a batch from then on, and has still to publish, is what that key makes of
the batch; of a sealed batch that comes before any key, it is one report of the missing key. What is published is in the
streams: each holds the newest events of its kind. -/
theorem keys_stay_on_their_connection (h : Traced world session log l) {before after : List Act} {n link : Nat}
    {b : Bytes} {key : Option CipherKey} (hlog : log = before ++ .handled n link b key :: after) :
    key = keyOn before link ∧
      (∀ {op events e}, Reaction.BringsBatch session b op events e →
        (yields n (l.owedBy n) after).filter Event.isBatch = batchEvents op events e (keyOn before link) ∧
          (e.tag = Encryption.sealedGzip.tag ∨ e.tag = Encryption.sealedRaw.tag → keyOn before link = none →
            (yields n (l.owedBy n) after).filter Event.isBatch = [.error (.decode op .missingKey)])) ∧
      yields n [] after <+: yields n (l.owedBy n) after ∧
      (yields n [] after).Sublist (log.filterMap Act.event?) ∧
      l.events.Holds Events.defaultCapacity (log.filterMap Act.event?) := by
  have hkept := kept_of_traced h
  have hkey := hkept.key hlog
  refine ⟨hkey, ?_, yields_initial .., ?_, hkept.holds⟩
  · intro op events e hb
    have hpaid := hkept.paid hlog hb
    rw [hkey] at hpaid
    refine ⟨hpaid, ?_⟩
    intro htag hnone
    rw [hpaid, hnone]
    exact batchEvents_error _ _ (Envelope.decode_missingKey _ htag)
  · have hafter : after.Sublist log := by
      rw [hlog]
      exact (List.sublist_cons_self ..).trans (List.sublist_append_right ..)
    exact (yields_sublist n after).trans (hafter.filterMap _)

/-- some moves, one after the other -/
def run (world : Surroundings) : List Move → List Act × Listener → Option (List Act × Listener)
  | [], s => some s
  | m :: r, (log, l) =>
    match l.step world m with
    | some k => run world r (log ++ acts m l k, k)
    | none => none

theorem traced_run {ms : List Move} {s : List Act × Listener} (h : Traced world session log l)
    (hrun : run world ms (log, l) = some s) : Traced world session s.1 s.2 := by
  induction ms generalizing log l with
  | nil =>
    cases Option.some.inj hrun
    exact h
  | cons m r ih =>
    rw [run] at hrun
    split at hrun
    · next k hstep => exact ih (h.step hstep) hrun
    · cases hrun

def Act.isKeyless (b : Bytes) : Act → Bool
  | .handled _ _ x none => x == b
  | _ => false

theorem exists_of_isKeyless {b : Bytes} {a : Act} (h : a.isKeyless b) : ∃ n link, a = .handled n link b none := by
  cases a with
  | handled n link x key =>
    cases key with
    | none => exact ⟨n, link, by rw [beq_iff_eq.1 h]⟩
    | some => cases h
  | published => cases h

def sealedBatch : Envelope := { Envelope.plain (.str "") with tag := Encryption.sealedGzip.tag }

def sealedFrame : Frame := ⟨.messages .user, Text.toBytes sealedBatch.render⟩

theorem parse_sealedFrame : Envelope.parse sealedFrame.body = .ok sealedBatch := by
  rw [sealedFrame, Envelope.parse, Envelope.render, Json.renderInOrder, Json.Reading.parse_render _ (by decide)]
  rfl

/-- a dial, and a sealed batch as the first payload -/
def keylessMoves : List Move :=
  .start ⟨[0]⟩ true :: List.replicate 11 (Move.work 0 .proceed) ++ .peerSend 0 (.binary sealedFrame.encode) ::
    List.replicate 2 (Move.reader 0 .proceed) ++ List.replicate 4 (Move.work 1 .proceed)

/-- A sealed batch on a connection that has been given no key yet: there is a report in the stream of the errors. -/
theorem keys_stay_on_their_connection_missing :
    ∃ world session log l before after n link op events,
      Traced world session log l ∧ log = before ++ .handled n link sealedFrame.encode none :: after ∧
        Reaction.BringsBatch session sealedFrame.encode op events sealedBatch ∧ keyOn before link = none ∧
          (yields n (l.owedBy n) after).filter Event.isBatch = [.error (.decode op .missingKey)] ∧
          ((log.filterMap Act.event?).filterMap Event.error?).length = 1 ∧
          l.events.Holds Events.defaultCapacity (log.filterMap Act.event?) := by
  let world : Surroundings := ⟨fun _ _ => ⟨0, none⟩, fun _ => 0⟩
  let session : Session := { plainSession "7" false with endpoints := ["ws://a/"] }
  have hbatch : Reaction.BringsBatch session sealedFrame.encode .messageBatch
      (Batch.liveEvents session.uid session.selfListen .user) sealedBatch :=
    .live (Frame.decode?_encode sealedFrame) rfl parse_sealedFrame rfl
  have hran : (run world keylessMoves ([], create session)).any
      (fun s => s.1.any (Act.isKeyless sealedFrame.encode) &&
        ((s.1.filterMap Act.event?).filterMap Event.error?).length == 1) = true := by decide +kernel
  obtain ⟨⟨log, l⟩, hrun, hend⟩ := (Option.any_eq_true _ _).1 hran
  rw [Bool.and_eq_true, beq_iff_eq] at hend
  obtain ⟨hhandled, hreport⟩ := hend
  obtain ⟨a, ha, hkeyless⟩ := List.any_eq_true.1 hhandled
  obtain ⟨n, link, rfl⟩ := exists_of_isKeyless hkeyless
  obtain ⟨before, after, hlog⟩ := List.append_of_mem ha
  have htraced := traced_run .start hrun
  obtain ⟨hkey, hpaid, -, -, hholds⟩ := keys_stay_on_their_connection htraced hlog
  exact ⟨world, session, log, l, before, after, n, link, _, _, htraced, hlog, hbatch, hkey.symm,
    (hpaid hbatch).2 (.inl rfl) hkey.symm, hreport, hholds⟩

end Listener

end ChatWire
