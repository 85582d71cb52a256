import ChatWire.Proofs.Listener.Station

/-! The story of a chain: all that was done by the call that started it and by the task that the call handed it over
to, in order. What holds before the call claims the listener, and is kept by every turn of the chain and by whatever
goes on apart from it, holds of the whole story. -/

namespace ChatWire.Listener

/-! Notes of a run. -/

/-- What a task has done, or that it has handed its chain over. -/
inductive Note
  | did (task : Nat) (d : Deed)
  | handover (task heir : Nat)

def Note.task : Note → Nat
  | did n _ => n
  | handover n _ => n

def Note.deed? : Note → Option Deed
  | did _ d => some d
  | handover .. => none

/-- what is noted of a move from `l` to `k` -/
def notes (m : Move) (l k : Listener) : List Note :=
  match m with
  | .work n _ =>
    match l.work[n]? with
    | some w => if w.isSpawning then [.handover n l.work.length] else (w.deeds l ++ changes l k).map (.did n)
    | none => []
  | _ => []

/-- The runs of a listener from its creation on, with notes of what its chains do. -/
inductive Noted (world : Surroundings) (session : Session) : List Note → Listener → Prop
  | start : Noted world session [] (create session)
  | step {log : List Note} {l k : Listener} {m : Move} : Noted world session log l → l.step world m = some k →
      Noted world session (log ++ notes m l k) k

/-- what was done by all tasks -/
def deeds (log : List Note) : List Deed := log.filterMap Note.deed?

def Deed.event? : Deed → Option Event
  | .published e => some e
  | _ => none

/-- what the chain of task `n` has done -/
def story : Nat → List Note → List Deed
  | _, [] => []
  | n, .did m d :: r => if m = n then d :: story n r else story n r
  | n, .handover m heir :: r => if m = n then story heir r else story n r

/-- the task that leads the chain of task `n` now -/
def leader : Nat → List Note → Nat
  | n, [] => n
  | n, .did _ _ :: r => leader n r
  | n, .handover m heir :: r => if m = n then leader heir r else leader n r

theorem leader_append (n : Nat) (a b : List Note) : leader n (a ++ b) = leader (leader n a) b := by
  induction a generalizing n with
  | nil => rfl
  | cons x a ih =>
    cases x with
    | did => exact ih n
    | handover m heir =>
      simp only [List.cons_append, leader]
      split_ifs <;> exact ih _

theorem story_append (n : Nat) (a b : List Note) : story n (a ++ b) = story n a ++ story (leader n a) b := by
  induction a generalizing n with
  | nil => rfl
  | cons x a ih =>
    cases x with
    | did m d =>
      simp only [List.cons_append, story, leader]
      split_ifs
      · exact congrArg (d :: ·) (ih n)
      · exact ih n
    | handover m heir =>
      simp only [List.cons_append, story, leader]
      split_ifs <;> exact ih _

theorem leader_did (n m : Nat) (ds : List Deed) : leader m (ds.map (.did n)) = m := by
  induction ds with
  | nil => rfl
  | cons d r ih => exact ih

theorem story_did (n : Nat) (ds : List Deed) : story n (ds.map (.did n)) = ds := by
  induction ds with
  | nil => rfl
  | cons d r ih => rw [List.map_cons, story, if_pos rfl, ih]

/-- A chain does no more than all tasks. -/
theorem story_sublist (n : Nat) (log : List Note) : (story n log).Sublist (deeds log) := by
  induction log generalizing n with
  | nil => exact List.Sublist.refl _
  | cons x r ih =>
    cases x with
    | did m d =>
      simp only [story]
      split_ifs
      · exact (ih n).cons_cons d
      · exact (ih n).cons d
    | handover m heir =>
      simp only [story]
      split_ifs
      · exact ih heir
      · exact ih n

theorem deeds_did (n : Nat) (ds : List Deed) : deeds (ds.map (.did n)) = ds := by
  rw [deeds, List.filterMap_map]
  exact List.filterMap_some

/-- What other tasks do does not matter. -/
theorem story_apart {n : Nat} {log : List Note} (h : ∀ x ∈ log, x.task ≠ n) : story n log = [] ∧ leader n log = n := by
  induction log with
  | nil => exact ⟨rfl, rfl⟩
  | cons x r ih =>
    have hne : x.task ≠ n := h x (List.mem_cons_self ..)
    have hr := ih fun y hy => h y (List.mem_cons_of_mem _ hy)
    cases x with
    | did m d => exact ⟨(if_neg hne).trans hr.1, hr.2⟩
    | handover m heir => exact ⟨(if_neg hne).trans hr.1, (if_neg hne).trans hr.2⟩

theorem task_of_mem_notes {n : Nat} {c : Choice} {l k : Listener} {x : Note} (h : x ∈ notes (.work n c) l k) :
    x.task = n := by
  unfold notes at h
  dsimp only at h
  split at h
  · split_ifs at h
    · rw [List.mem_singleton.1 h]
      rfl
    · obtain ⟨d, -, rfl⟩ := List.mem_map.1 h
      rfl
  · cases h

/-! What holds of all runs. -/

/-- The rules, the endpoints and the codes are those of the session. -/
structure Rooted (session : Session) (l : Listener) : Prop where
  same : l.session = session
  rules : ∀ code, (l.retry.budget? code).map Budget.rule = session.settings.rule? code
  endpoints : l.rotation.endpoints = session.endpoints
  codes : l.rotation.codes = session.settings.rotateCodes

namespace Rooted

variable {session : Session} {l k : Listener}

theorem create (session : Session) : Rooted session (create session) where
  same := rfl
  rules code := by
    rw [Listener.create, RetryPolicy.budget?_ofSettings, Option.map_map]
    exact Option.map_id'
  endpoints := rfl
  codes := rfl

theorem spares (h : Rooted session l) (hk : Keeps l k) (hs : Spares l k) : Rooted session k where
  same := hk.session.trans h.same
  rules := hs.retry ▸ h.rules
  endpoints := hs.rotation ▸ h.endpoints
  codes := hs.rotation ▸ h.codes

/-- A retry spends, and does not touch the rules. -/
theorem rules_of_grants (h : Rooted session l) {info : CloseInfo} (hg : Grants info l k) (code : Nat) :
    (k.retry.budget? code).map Budget.rule = session.settings.rule? code := by
  obtain ⟨delay, hretry⟩ := hg.retry
  obtain ⟨-, hspent, -⟩ := RetryPolicy.of_retry_some hretry
  rw [hspent, RetryPolicy.budget?_update, Option.map_map, ← h.rules code]
  congr 1
  funext b
  simp only [Function.comp_apply]
  split_ifs <;> rfl

theorem turn (h : Rooted session l) {token : Token} {retryOnClose : Bool} {s s' : Station} {ds : List Deed}
    (ht : Turn token retryOnClose l k s ds s') (hk : Keeps l k) : Rooted session k := by
  cases ht with
  | claim hallow hretry hrotation =>
    refine ⟨hk.session.trans h.same, fun code => ?_, ?_, ?_⟩
    · rw [hretry, RetryPolicy.budget?_reset, Option.map_map, ← h.rules code]
      rfl
    · rw [hrotation]
      exact h.endpoints
    · rw [hrotation]
      exact h.codes
  | stay hg _ hrotation | exhaust hg _ _ hrotation =>
    exact ⟨hk.session.trans h.same, h.rules_of_grants hg, hrotation ▸ h.endpoints, hrotation ▸ h.codes⟩
  | rotate hg _ hrotate =>
    obtain ⟨-, hrotation⟩ := Rotation.rotate_ok hrotate
    refine ⟨hk.session.trans h.same, h.rules_of_grants hg, ?_, ?_⟩
    · rw [hrotation]
      exact h.endpoints
    · rw [hrotation]
      exact h.codes
  | pass hs | dial hs => exact h.spares hk hs

end Rooted

variable {world : Surroundings} {session : Session} {log : List Note} {l k : Listener}

/-- The call that starts a chain hands it over to a new task; other steps start none. -/
theorem WorkStep.work_cases {w w' : Work} (h : WorkStep world l w w' k) :
    (w.isSpawning = false ∧ (k.work = l.work ∨ ∃ on t, k.work = l.work ++ [.keepalive on t .starting])) ∨
      ∃ token retryOnClose link, w = .start token retryOnClose (.spawning link) ∧
        w' = .start token retryOnClose (.finished (.ok ())) ∧ k = l.spawn (.chain token (.receiving link .cancelled)) := by
  have hdial {token : Token} {d d' : Dialing} (hd : DialingStep world token l d d' k) : k.work = l.work := by
    obtain ⟨es, hemits, -⟩ := hd.emits
    exact hemits.work.trans (List.append_nil _)
  cases h with
  | start hs =>
    cases hs with
    | spawn => exact .inr ⟨_, _, _, rfl, rfl, rfl⟩
    | dial hd => exact .inl ⟨rfl, .inl (hdial hd)⟩
    | _ => exact .inl ⟨rfl, .inl rfl⟩
  | stop hs => exact .inl ⟨rfl, .inl hs.quiet.work⟩
  | chain hs =>
    refine .inl ⟨rfl, ?_⟩
    cases hs with
    | @handle link b _ _ hhandle =>
      have hemits := handle_emits link b l
      rw [hhandle] at hemits
      exact .inl (hemits.work.trans (List.append_nil _))
    | beginPing => exact .inr ⟨_, _, rfl⟩
    | yield hclosing | stop hclosing => exact .inl (Quiet.stepClosing hclosing).work
    | drop => exact .inl ((drop_emits l).work.trans (List.append_nil _))
    | dial hd => exact .inl (hdial hd)
    | _ => exact .inl rfl
  | keepalive hs => exact .inl ⟨rfl, .inl hs.quiet.work⟩

theorem Work.isSober_of_isFresh {w : Work} (h : w.isFresh) : w.IsSober := by
  rcases Work.eq_of_isFresh h with ⟨token, retryOnClose, rfl⟩ | rfl <;> exact fun _ h => absurd h List.not_mem_nil

/-- What holds of a run and its notes. -/
structure Based (session : Session) (log : List Note) (l : Listener) : Prop where
  rooted : Rooted session l
  sober : ∀ w ∈ l.work, w.IsSober
  born : ∀ x ∈ log, x.task < l.work.length
  led : ∃ K, Led K l

theorem Noted.traced (h : Noted world session log l) : ∃ acts, Traced world session acts l := by
  induction h with
  | start => exact ⟨_, .start⟩
  | step _ hstep ih =>
    obtain ⟨acts, h⟩ := ih
    exact ⟨_, h.step hstep⟩

/-! The list of the tasks: a step of a task replaces it, and may add others at the end. -/

theorem getElem?_of_append {vs : List Work} {i : Nat} {v : Work} (hwork : k.work = l.work ++ vs)
    (hi : l.work[i]? = some v) : k.work[i]? = some v := by
  rw [hwork, List.getElem?_append_left (List.getElem?_eq_some_iff.1 hi).1, hi]

theorem forall_mem_append {P : Work → Prop} {vs : List Work} (hwork : k.work = l.work ++ vs) (h : ∀ v ∈ l.work, P v)
    (hvs : ∀ v ∈ vs, P v) : ∀ v ∈ k.work, P v := by
  rw [hwork]
  exact List.forall_mem_append.2 ⟨h, hvs⟩

theorem forall_mem_setTask {P : Work → Prop} {n : Nat} {w : Work} (h : ∀ v ∈ k.work, P v) (hw : P w) :
    ∀ v ∈ (k.setTask n w).work, P v := by
  intro v hv
  rcases List.mem_or_eq_of_mem_set hv with hv | rfl
  · exact h v hv
  · exact hw

theorem getElem?_setTask_self {n : Nat} (w : Work) (h : n < k.work.length) : (k.setTask n w).work[n]? = some w :=
  List.getElem?_set_self h

theorem getElem?_setTask_ne {vs : List Work} {n i : Nat} {v : Work} (w : Work) (hwork : k.work = l.work ++ vs)
    (hne : n ≠ i) (hi : l.work[i]? = some v) : (k.setTask n w).work[i]? = some v := by
  rw [setTask, List.getElem?_set_ne hne, getElem?_of_append hwork hi]

/-- A step of a task adds at most one task: one that pings, or the one to which a chain is handed over. -/
theorem WorkStep.exists_spawned_of {P : Work → Prop} {w w' : Work} (h : WorkStep world l w w' k)
    (hping : ∀ on t, P (.keepalive on t .starting))
    (hchain : ∀ token retryOnClose link, w = .start token retryOnClose (.spawning link) →
      P (.chain token (.receiving link .cancelled))) : ∃ vs, k.work = l.work ++ vs ∧ ∀ v ∈ vs, P v := by
  rcases h.work_cases with ⟨-, hwork | ⟨on, t, hwork⟩⟩ | ⟨token, retryOnClose, link, rfl, -, rfl⟩
  · exact ⟨[], hwork.trans (List.append_nil _).symm, by simp⟩
  · exact ⟨_, hwork, List.forall_mem_singleton.2 (hping on t)⟩
  · exact ⟨_, rfl, List.forall_mem_singleton.2 (hchain token retryOnClose link rfl)⟩

/-- It publishes nothing to begin with, and is no call. -/
theorem WorkStep.exists_spawned {w w' : Work} (h : WorkStep world l w w' k) :
    ∃ vs, k.work = l.work ++ vs ∧ ∀ v ∈ vs, v.owed = [] ∧ ∀ token retryOnClose stage,
      v ≠ .start token retryOnClose stage :=
  h.exists_spawned_of (fun _ _ => ⟨rfl, fun _ _ _ => nofun⟩) fun _ _ _ _ => ⟨rfl, fun _ _ _ => nofun⟩

theorem WorkStep.lt_length {n : Nat} {w w' : Work} (h : WorkStep world l w w' k) (hn : l.work[n]? = some w) :
    n < k.work.length := by
  obtain ⟨vs, hvs, -⟩ := h.exists_spawned
  rw [hvs, List.length_append]
  exact Nat.lt_of_lt_of_le (List.getElem?_eq_some_iff.1 hn).1 (Nat.le_add_right ..)

theorem Work.exists_isOf (w : Work) : ∃ token retryOnClose, w.IsOf token retryOnClose := by
  cases w with
  | start token retryOnClose => exact ⟨token, retryOnClose, rfl, rfl⟩
  | chain token => exact ⟨token, false, rfl⟩
  | stop | keepalive => exact ⟨⟨[]⟩, false, trivial⟩

/-- A step of a task, whichever chain it is of, leaves things rooted. -/
theorem Rooted.step {w w' : Work} (h : Rooted session l) (hstep : WorkStep world l w w' k)
    (hopen : w.isActive → l.phase.isOpen) (hsober : w.IsSober) : Rooted session k := by
  rcases hstep.work_cases with ⟨hspawn, -⟩ | ⟨token, retryOnClose, link, -, -, rfl⟩
  · obtain ⟨token, retryOnClose, hof⟩ := w.exists_isOf
    exact h.turn (hstep.turn hof hopen hsober hspawn) hstep.keeps
  · exact h.spares hstep.keeps ⟨rfl, rfl, rfl⟩

/-- What is noted of a step of a task that does not hand over. -/
theorem notes_work {n : Nat} {c : Choice} {w : Work} (hn : l.work[n]? = some w) (hspawn : w.isSpawning = false)
    (k : Listener) : notes (.work n c) l k = (w.deeds l ++ changes l k).map (.did n) := by
  simp only [notes, hn, hspawn]
  rfl

theorem notes_spawning {n : Nat} {c : Choice} {w : Work} (hn : l.work[n]? = some w) (hspawn : w.isSpawning)
    (k : Listener) : notes (.work n c) l k = [.handover n l.work.length] := by
  simp only [notes, hn, hspawn, if_true]

theorem notes_outside {m : Move} (hm : ∀ n c, m ≠ .work n c) (l k : Listener) : notes m l k = [] := by
  cases m with
  | work n c => exact absurd rfl (hm n c)
  | _ => rfl

/-- A move is a step of a task, or it is not. -/
theorem exists_work_or (m : Move) : (∃ n c, m = .work n c) ∨ ∀ n c, m ≠ .work n c := by
  cases m with
  | work n c => exact .inl ⟨n, c, rfl⟩
  | _ => exact .inr fun _ _ => nofun

theorem step_work {n : Nat} {c : Choice} (h : l.step world (.work n c) = some k) :
    ∃ w w' k', l.work[n]? = some w ∧ WorkStep world l w w' k' ∧ k = k'.setTask n w' := by
  simp only [step, Option.bind_eq_bind, Option.bind_eq_some_iff, Option.some.injEq] at h
  obtain ⟨w, hw, ⟨w', k'⟩, hstep, rfl⟩ := h
  exact ⟨w, w', k', hw, stepWork_cases hstep, rfl⟩

theorem Noted.based (h : Noted world session log l) : Based session log l := by
  induction h with
  | start => exact ⟨.create session, by simp [create], by simp, _, (kept_create session).led⟩
  | @step log l k m hprev hstep ih =>
    obtain ⟨acts, htraced⟩ := (hprev.step hstep).traced
    have hled := (kept_of_traced htraced).led
    obtain ⟨K, hprior⟩ := ih.led
    rcases exists_work_or m with ⟨n, c, rfl⟩ | hm
    · obtain ⟨w, w', k', hn, hwork, rfl⟩ := step_work hstep
      have hsober := ih.sober w (List.mem_of_getElem? hn)
      obtain ⟨vs, hvs, hfresh⟩ := hwork.exists_spawned
      have hlt : n < l.work.length := (List.getElem?_eq_some_iff.1 hn).1
      have hlen : (k'.setTask n w').work.length = l.work.length + vs.length := by
        rw [setTask, List.length_set, hvs, List.length_append]
      refine ⟨?_, ?_, ?_, _, hled⟩
      · exact (ih.rooted.step hwork (fun hw => (hprior.place hn hw).1) hsober).spares (.setTask ..) (.setTask ..)
      · refine forall_mem_setTask (forall_mem_append hvs ih.sober ?_) (hwork.isSober hsober)
        intro v hv e he
        rw [(hfresh v hv).1] at he
        cases he
      · intro x hx
        rw [hlen]
        rcases List.mem_append.1 hx with hx | hx
        · exact Nat.lt_of_lt_of_le (ih.born x hx) (Nat.le_add_right ..)
        · rw [task_of_mem_notes hx]
          omega
    · obtain ⟨hkeeps, hspares, vs, hvs, hfresh⟩ := step_outside hstep hm
      rw [notes_outside hm, List.append_nil]
      refine ⟨ih.rooted.spares hkeeps hspares, ?_, ?_, _, hled⟩
      · exact forall_mem_append hvs ih.sober fun v hv => Work.isSober_of_isFresh (hfresh v hv)
      · intro x hx
        rw [hvs, List.length_append]
        exact Nat.lt_of_lt_of_le (ih.born x hx) (Nat.le_add_right ..)

/-! What is published is in the streams. -/

theorem event?_deeds (w : Work) (l : Listener) : (w.deeds l).filterMap Deed.event? = [] := by
  cases w with
  | chain parent stage =>
    cases stage with
    | handling link b =>
      simp only [Work.deeds, Chain.deeds]
      split <;> rfl
    | yielding link stage => cases stage <;> rfl
    | dialing info d =>
      cases d with
      | finished r => cases r <;> rfl
      | _ => rfl
    | _ => rfl
  | _ => rfl

theorem event?_changes (l k : Listener) : (changes l k).filterMap Deed.event? = k.history.drop l.history.length := by
  have hshut : (shutting l k).filterMap Deed.event? = [] := by
    unfold shutting
    split <;> rfl
  have hdialed : ((k.dials.drop l.dials.length).map Deed.dialed).filterMap Deed.event? = [] := by
    rw [List.filterMap_map, List.filterMap_eq_nil_iff]
    exact fun _ _ => rfl
  have hpublished : ((k.history.drop l.history.length).map Deed.published).filterMap Deed.event? =
      k.history.drop l.history.length := by
    rw [List.filterMap_map]
    exact List.filterMap_some
  rw [changes, List.filterMap_append, List.filterMap_append, hshut, hdialed, hpublished]
  rfl

/-- What is noted of a step of a task tells all that it publishes. -/
theorem WorkStep.publishes {n : Nat} {c : Choice} {w w' : Work} (h : WorkStep world l w w' k) (hw : l.work[n]? = some w)
    (hsound : w.IsSound) :
    Publishes ((deeds (notes (.work n c) l (k.setTask n w'))).filterMap Deed.event?) l (k.setTask n w') := by
  rcases h.work_cases with ⟨hspawn, -⟩ | ⟨token, retryOnClose, link, rfl, rfl, rfl⟩
  · obtain ⟨es, spawned, hemits, -⟩ := h.conserves hsound
    have hdrop : (k.setTask n w').history.drop l.history.length = es := by
      rw [setTask, hemits.history, List.drop_left]
    rw [notes_work hw hspawn, deeds_did, List.filterMap_append, event?_deeds, event?_changes, List.nil_append, hdrop]
    exact ⟨hemits.history, hemits.holds⟩
  · rw [notes_spawning hw rfl]
    exact .same rfl rfl

/-- What is noted of a move tells all that it publishes. -/
theorem Noted.publishes {m : Move} (h : Noted world session log l) (hstep : l.step world m = some k) :
    Publishes ((deeds (notes m l k)).filterMap Deed.event?) l k := by
  rcases exists_work_or m with ⟨n, c, rfl⟩ | hm
  · obtain ⟨acts, htraced⟩ := h.traced
    obtain ⟨w, w', k', hw, hwork, rfl⟩ := step_work hstep
    exact hwork.publishes hw ((kept_of_traced htraced).sound w (List.mem_of_getElem? hw))
  · rw [notes_outside hm]
    rcases step_cases hstep with ⟨n, c, -, -, -, rfl, -⟩ | ⟨-, hquiet | ⟨v, -, -, -, rfl⟩⟩
    · exact absurd rfl (hm n c)
    · exact hquiet.toPublishes
    · exact .same rfl rfl

/-- What was published in a run is in the streams: each holds the newest events of its kind. -/
theorem Noted.holds (h : Noted world session log l) :
    l.events.Holds Events.defaultCapacity ((deeds log).filterMap Deed.event?) := by
  induction h with
  | start => exact .empty _
  | step hprev hstep ih =>
    rw [deeds, List.filterMap_append, List.filterMap_append]
    exact (hprev.publishes hstep).holds ih

/-! The story of a chain. -/

/-- Each deed is as `Q` says of what came before it. -/
def Each (Q : List Deed → Deed → Prop) (s : List Deed) : Prop := ∀ a x b, s = a ++ x :: b → Q a x

/-- An item among some more stands among those that were there, or is one of the new ones. -/
theorem split_append {α : Type} {s ds a b : List α} {x : α} (h : s ++ ds = a ++ x :: b) :
    (∃ b', s = a ++ x :: b' ∧ b = b' ++ ds) ∨ ∃ a', a = s ++ a' ∧ ds = a' ++ x :: b := by
  rcases List.append_eq_append_iff.1 h with ⟨a', ha, hds⟩ | ⟨b', hs, hb⟩
  · exact .inr ⟨a', ha, hds⟩
  · cases b' with
    | nil => exact .inr ⟨[], by rw [List.append_nil, hs, List.append_nil], hb.symm⟩
    | cons y b' =>
      obtain ⟨rfl, htail⟩ := List.cons.inj hb
      exact .inl ⟨b', hs, htail⟩

/-- As above, for one new item. -/
theorem split_concat {α : Type} {s a b : List α} {x y : α} (h : s ++ [y] = a ++ x :: b) :
    (∃ b', s = a ++ x :: b' ∧ b = b' ++ [y]) ∨ (a = s ∧ x = y ∧ b = []) := by
  rcases split_append h with hold | ⟨a', rfl, hnew⟩
  · exact .inl hold
  · cases a' with
    | nil =>
      cases hnew
      exact .inr ⟨List.append_nil s, rfl, rfl⟩
    | cons z a' => simp at hnew

/-- One new deed counts or not. -/
theorem countP_concat {p : Deed → Bool} {s : List Deed} {x : Deed} :
    (s ++ [x]).countP p = s.countP p + if p x then 1 else 0 := by
  rw [List.countP_append, List.countP_singleton]

namespace Each

variable {Q : List Deed → Deed → Prop} {s : List Deed}

theorem nil : Each Q [] := fun a x b h => by simp at h

theorem concat {y : Deed} (h : Each Q s) (hy : Q s y) : Each Q (s ++ [y]) := by
  intro a x b heq
  rcases split_concat heq with ⟨b', hs, -⟩ | ⟨rfl, rfl, -⟩
  · exact h a x b' hs
  · exact hy

end Each

def Starting.hasHandedOver : Starting → Bool
  | .finished (.ok _) => true
  | _ => false

/-- Task `m` leads the chain of call `n`: it is the call itself, or the task that the call has handed over to. -/
inductive IsHead (token : Token) (retryOnClose : Bool) (l : Listener) (n : Nat) : Nat → Work → Prop
  | call {stage : Starting} : stage.hasHandedOver = false →
      IsHead token retryOnClose l n n (.start token retryOnClose stage)
  | chain {m : Nat} {stage : Chain} : l.work[n]? = some (.start token retryOnClose (.finished (.ok ()))) →
      IsHead token retryOnClose l n m (.chain token stage)

/-- What holds of the story of a chain, of where it stands, and of the listener, whatever happens. -/
structure Invariant (session : Session) (token : Token) (retryOnClose : Bool)
    (P : List Deed → Station → Listener → Prop) : Prop where
  begins : ∀ {l}, Rooted session l → P [] .outside l
  apart : ∀ {s i l k}, Keeps l k → (i.isActive → Spares l k) → P s i l → P s i k
  turn : ∀ {s ds i j l k}, Rooted session l → Keeps l k → Turn token retryOnClose l k i ds j → P s i l →
    P (s ++ ds) j k

/-- Two invariants are one. -/
theorem Invariant.and {token : Token} {retryOnClose : Bool} {P Q : List Deed → Station → Listener → Prop}
    (hP : Invariant session token retryOnClose P) (hQ : Invariant session token retryOnClose Q) :
    Invariant session token retryOnClose fun s i l => P s i l ∧ Q s i l where
  begins hroot := ⟨hP.begins hroot, hQ.begins hroot⟩
  apart hkeeps hspares h := ⟨hP.apart hkeeps hspares h.1, hQ.apart hkeeps hspares h.2⟩
  turn hroot hkeeps ht h := ⟨hP.turn hroot hkeeps ht h.1, hQ.turn hroot hkeeps ht h.2⟩

theorem IsHead.isOf {token : Token} {retryOnClose : Bool} {n m : Nat} {w : Work}
    (h : IsHead token retryOnClose l n m w) : w.IsOf token retryOnClose := by
  cases h with
  | call => exact ⟨rfl, rfl⟩
  | chain => rfl

/-- Once the call has succeeded, its task has handed over. -/
theorem IsHead.exists_chain {token : Token} {retryOnClose : Bool} {n m : Nat} {w : Work}
    (h : IsHead token retryOnClose l n m w) (hm : l.work[m]? = some w)
    (hn : l.work[n]? = some (.start token retryOnClose (.finished (.ok ())))) : ∃ stage, w = .chain token stage := by
  cases h with
  | call hstage =>
    cases Option.some.inj (hm.symm.trans hn)
    cases hstage
  | chain => exact ⟨_, rfl⟩

/-- A call that has failed leads its chain to the end. -/
theorem IsHead.eq_call {token : Token} {retryOnClose : Bool} {n m : Nat} {w : Work} {e : ListenerError}
    (h : IsHead token retryOnClose l n m w) (hm : l.work[m]? = some w)
    (hn : l.work[n]? = some (.start token retryOnClose (.finished (.error e)))) :
    w = .start token retryOnClose (.finished (.error e)) := by
  cases h with
  | call => exact Option.some.inj (hm.symm.trans hn)
  | chain hcall => cases hcall.symm.trans hn

/-- The head of a chain goes on. -/
theorem IsHead.step {token : Token} {retryOnClose : Bool} {n m : Nat} {w w' : Work} {c : Listener}
    (h : IsHead token retryOnClose l n m w) (hstep : WorkStep world l w w' k) (hspawn : w.isSpawning = false)
    (hn : ∀ v, m ≠ n → l.work[n]? = some v → c.work[n]? = some v) (hm : l.work[m]? = some w) :
    IsHead token retryOnClose c n m w' := by
  cases h with
  | call =>
    cases hstep with
    | start hs =>
      refine .call ?_
      cases hs with
      | spawn => cases hspawn
      | _ => rfl
  | chain hcall =>
    cases hstep with
    | chain hs =>
      refine .chain (hn _ ?_ hcall)
      rintro rfl
      rw [hcall] at hm
      cases hm

/-- The head of a chain is still its head when another task has gone on. -/
theorem IsHead.apart {token : Token} {retryOnClose : Bool} {n m : Nat} {w : Work} {c : Listener}
    (h : IsHead token retryOnClose l n m w)
    (hn : l.work[n]? = some (.start token retryOnClose (.finished (.ok ()))) →
      c.work[n]? = some (.start token retryOnClose (.finished (.ok ())))) : IsHead token retryOnClose c n m w := by
  cases h with
  | call hstage => exact .call hstage
  | chain hcall => exact .chain (hn hcall)

/-- Where a chain stands, and what holds of its story. -/
def Stands (P : List Deed → Station → Listener → Prop) (token : Token) (retryOnClose : Bool) (n : Nat)
    (log : List Note) (l : Listener) : Prop :=
  ∃ w, l.work[leader n log]? = some w ∧ IsHead token retryOnClose l n (leader n log) w ∧ P (story n log) w.station l

section

variable {P : List Deed → Station → Listener → Prop} {token : Token} {retryOnClose : Bool} {n : Nat}

/-- A call that has just been made. -/
theorem Invariant.stands_fresh (hP : Invariant session token retryOnClose P) (hbase : Based session log l)
    (hborn : ∀ x ∈ log, x.task < n) (hn : l.work[n]? = some (.start token retryOnClose .check)) :
    Stands P token retryOnClose n log l := by
  obtain ⟨hstory, hleader⟩ := story_apart fun x hx => (hborn x hx).ne
  refine ⟨_, by rw [hleader, hn], ?_, ?_⟩
  · rw [hleader]
    exact .call rfl
  · rw [hstory]
    exact hP.begins hbase.rooted

/-- The head of the chain takes a step. -/
theorem Invariant.stands_head (hP : Invariant session token retryOnClose P) (hbase : Based session log l) {m : Nat}
    {c : Choice} {w w' : Work} (hm : leader n log = m) (hw : l.work[m]? = some w)
    (hhead : IsHead token retryOnClose l n m w) (hstory : P (story n log) w.station l)
    (hstep : WorkStep world l w w' k) :
    Stands P token retryOnClose n (log ++ notes (.work m c) l (k.setTask m w')) (k.setTask m w') := by
  obtain ⟨K, hled⟩ := hbase.led
  obtain ⟨vs, hvs, -⟩ := hstep.exists_spawned
  have hlt := hstep.lt_length hw
  rcases hstep.work_cases with ⟨hspawn, -⟩ | ⟨t, b, link, rfl, rfl, rfl⟩
  · have hturn := hstep.turn hhead.isOf (fun ha => (hled.place hw ha).1) (hbase.sober w (List.mem_of_getElem? hw)) hspawn
    have hgone := hP.turn hbase.rooted hstep.keeps hturn hstory
    have hnotes : notes (.work m c) l (k.setTask m w') = (w.deeds l ++ changes l k).map (.did m) := by
      simp only [notes, hw, hspawn]
      rfl
    have hleader : leader n (log ++ notes (.work m c) l (k.setTask m w')) = m := by
      rw [leader_append, hnotes, leader_did, hm]
    refine ⟨w', ?_, ?_, ?_⟩
    · rw [hleader]
      exact getElem?_setTask_self w' hlt
    · rw [hleader]
      exact hhead.step hstep hspawn (fun v hne hv => getElem?_setTask_ne w' hvs hne hv) hw
    · rw [story_append, hnotes, hm, story_did]
      exact hP.apart (.setTask m w' k) (fun _ => .setTask m w' k) hgone
  · -- The call hands over: the new task stands where the call stood.
    cases hhead with
    | call =>
      have hlast : (setTask n (.start token retryOnClose (.finished (.ok ())))
          (l.spawn (.chain token (.receiving link .cancelled)))).work[l.work.length]? =
            some (.chain token (.receiving link .cancelled)) := by
        rw [setTask, List.getElem?_set_ne (List.getElem?_eq_some_iff.1 hw).1.ne]
        exact List.getElem?_concat_length
      rw [notes_spawning hw rfl]
      refine ⟨.chain token (.receiving link .cancelled), ?_, ?_, ?_⟩
      · rw [leader_append, hm, leader, if_pos rfl]
        exact hlast
      · exact .chain (getElem?_setTask_self _ hlt)
      · rw [story_append, hm, story, if_pos rfl, story, List.append_nil]
        exact hP.apart (hstep.keeps.trans (.setTask ..)) (fun _ => ⟨rfl, rfl, rfl⟩) hstory

/-- Another task takes a step. -/
theorem Invariant.stands_other (hP : Invariant session token retryOnClose P) (hbase : Based session log l) {i : Nat}
    {c : Choice} {v v' : Work} (hstands : Stands P token retryOnClose n log l) (hi : l.work[i]? = some v)
    (hne : i ≠ leader n log) (hstep : WorkStep world l v v' k) :
    Stands P token retryOnClose n (log ++ notes (.work i c) l (k.setTask i v')) (k.setTask i v') := by
  obtain ⟨K, hled⟩ := hbase.led
  obtain ⟨w, hw, hhead, hstory⟩ := hstands
  obtain ⟨vs, hvs, -⟩ := hstep.exists_spawned
  have happart : ∀ x ∈ notes (.work i c) l (k.setTask i v'), x.task ≠ leader n log := by
    intro x hx
    rw [task_of_mem_notes hx]
    exact hne
  obtain ⟨hstory', hleader⟩ := story_apart happart
  refine ⟨w, ?_, ?_, ?_⟩
  · rw [leader_append, hleader]
    exact getElem?_setTask_ne v' hvs hne hw
  · rw [leader_append, hleader]
    apply hhead.apart
    intro hcall
    refine getElem?_setTask_ne v' hvs ?_ hcall
    rintro rfl
    rw [hcall] at hi
    cases hi
    cases hstep with
    | start hs => cases hs
  · rw [story_append, hstory', List.append_nil]
    refine hP.apart (hstep.keeps.trans (.setTask ..)) ?_ hstory
    intro hactive
    rw [Work.isActive_station] at hactive
    have hidle := hled.idle_of_ne hw hactive hne hi
    rcases hstep.spares hidle with hspares | hclosed
    · exact hspares.trans (.setTask ..)
    · rw [(hled.place hw hactive).1] at hclosed
      cases hclosed

/-- A move that is not a step of a task. -/
theorem Invariant.stands_outside (hP : Invariant session token retryOnClose P) {vs : List Work}
    (hstands : Stands P token retryOnClose n log l) (hkeeps : Keeps l k) (hspares : Spares l k)
    (hvs : k.work = l.work ++ vs) : Stands P token retryOnClose n log k := by
  obtain ⟨w, hw, hhead, hstory⟩ := hstands
  have hold {i : Nat} {v : Work} (hi : l.work[i]? = some v) : k.work[i]? = some v := by
    rw [hvs, List.getElem?_append_left (List.getElem?_eq_some_iff.1 hi).1, hi]
  exact ⟨w, hold hw, hhead.apart hold, hP.apart hkeeps (fun _ => hspares) hstory⟩

end

/-- What is an invariant of chains holds of each of them, in every run. -/
theorem Invariant.stands {P : List Deed → Station → Listener → Prop} {token : Token} {retryOnClose : Bool} {n : Nat}
    {stage : Starting} (hP : Invariant session token retryOnClose P) (h : Noted world session log l)
    (hn : l.work[n]? = some (.start token retryOnClose stage)) : Stands P token retryOnClose n log l := by
  induction h generalizing stage with
  | start => cases hn
  | @step log l k m hprev hstep ih =>
    have hbase := hprev.based
    rcases exists_work_or m with ⟨i, c, rfl⟩ | hm
    · obtain ⟨v, v', k', hi, hwork, rfl⟩ := step_work hstep
      obtain ⟨vs, hvs, hfresh⟩ := hwork.exists_spawned
      have hcall : ∃ stage, l.work[n]? = some (.start token retryOnClose stage) := by
        rcases getElem?_setTask hvs hn with ⟨rfl, rfl⟩ | ⟨-, hn⟩ | ⟨-, hn⟩
        · cases hwork with
          | start => exact ⟨_, hi⟩
        · exact ⟨_, hn⟩
        · exact absurd rfl ((hfresh _ (List.mem_of_getElem? hn)).2 _ _ _)
      obtain ⟨stage, hcall⟩ := hcall
      have hstands := ih hcall
      by_cases hlead : i = leader n log
      · obtain ⟨w, hw, hhead, hstory⟩ := hstands
        rw [← hlead] at hw hhead
        obtain rfl := Option.some.inj (hi.symm.trans hw)
        exact hP.stands_head hbase hlead.symm hw hhead hstory hwork
      · exact hP.stands_other hbase hstands hi hlead hwork
    · obtain ⟨hkeeps, hspares, vs, hvs, hfresh⟩ := step_outside hstep hm
      rw [notes_outside hm, List.append_nil]
      rw [hvs, List.getElem?_append] at hn
      split_ifs at hn with hlt
      · exact hP.stands_outside (ih hn) hkeeps hspares hvs
      · have hmem := hfresh _ (List.mem_of_getElem? hn)
        have hstage : stage = .check := by
          cases stage with
          | check => rfl
          | _ => cases hmem
        have hbase' := (hprev.step hstep).based
        rw [notes_outside hm, List.append_nil] at hbase'
        refine hP.stands_fresh hbase' ?_ ?_
        · intro x hx
          exact Nat.lt_of_lt_of_le (hbase.born x hx) (Nat.le_of_not_lt hlt)
        · rw [hvs, List.getElem?_append_right (Nat.le_of_not_lt hlt), hn, hstage]

/-- A chain has done nothing before its first dial, and has dialed after that. -/
structure Begun (s : List Deed) (i : Station) : Prop where
  fresh : i.isFresh → s = []
  dialed : i.hasDialed → ∃ x ∈ s, x.isDial

theorem Begun.turn {token : Token} {retryOnClose : Bool} {s ds : List Deed} {i j : Station} (h : Begun s i)
    (ht : Turn token retryOnClose l k i ds j) : Begun (s ++ ds) j := by
  have hkeep (hi : i.hasDialed) : ∃ x ∈ s ++ ds, x.isDial := by
    obtain ⟨x, hx, hdial⟩ := h.dialed hi
    exact ⟨x, List.mem_append_left _ hx, hdial⟩
  cases ht with
  | pass _ hp =>
    refine ⟨?_, fun hj => hkeep (hp.hasDialed hj)⟩
    intro hj
    obtain ⟨hi, rfl⟩ := hp.eq_of_isFresh hj
    rw [h.fresh hi, List.append_nil]
  | claim =>
    refine ⟨?_, Bool.noConfusion⟩
    intro _
    rw [h.fresh rfl, List.append_nil]
  | @dial first d =>
    refine ⟨Bool.noConfusion, fun _ => ⟨.dialed d, ?_, rfl⟩⟩
    exact List.mem_append_right _ (List.mem_singleton_self _)
  | stay | rotate | exhaust => exact ⟨Bool.noConfusion, fun _ => hkeep rfl⟩

/-- An invariant may rely on how a chain begins. -/
theorem Invariant.of_begun {token : Token} {retryOnClose : Bool} {P : List Deed → Station → Listener → Prop}
    (begins : ∀ {l}, Rooted session l → P [] .outside l)
    (apart : ∀ {s i l k}, Keeps l k → (i.isActive → Spares l k) → P s i l → P s i k)
    (turn : ∀ {s ds i j l k}, Begun s i → Rooted session l → Turn token retryOnClose l k i ds j → P s i l →
      P (s ++ ds) j k) :
    Invariant session token retryOnClose fun s i l => Begun s i ∧ P s i l where
  begins hroot := ⟨⟨fun _ => rfl, Bool.noConfusion⟩, begins hroot⟩
  apart hkeeps hspares h := ⟨h.1, apart hkeeps hspares h.2⟩
  turn hroot _ ht h := ⟨h.1.turn ht, turn h.1 hroot ht h.2⟩

theorem Turn.eq_nil_or_singleton {token : Token} {retryOnClose : Bool} {ds : List Deed} {i j : Station}
    (h : Turn token retryOnClose l k i ds j) : ds = [] ∨ ∃ x, ds = [x] := by
  cases h with
  | pass _ hp => cases hp <;> first | exact .inl rfl | exact .inr ⟨_, rfl⟩
  | claim => exact .inl rfl
  | dial | stay | rotate | exhaust => exact .inr ⟨_, rfl⟩

/-- What is to follow a deed: `Q` says where a chain stands once `b` has been done after it. -/
theorem Invariant.of_after {token : Token} {retryOnClose : Bool} {Q : Deed → Station → List Deed → Listener → Prop}
    (apart : ∀ {x i b l k}, Keeps l k → Q x i b l → Q x i b k)
    (starts : ∀ {x i j l k}, Turn token retryOnClose l k i [x] j → Q x j [] k)
    (goes : ∀ {x i j b ds l k}, Keeps l k → Turn token retryOnClose l k i ds j → Q x i b l → Q x j (b ++ ds) k) :
    Invariant session token retryOnClose fun s i l => ∀ a x b, s = a ++ x :: b → Q x i b l where
  begins _ a x b heq := by simp at heq
  apart hkeeps _ h a x b heq := apart hkeeps (h a x b heq)
  turn {s ds i j l k} _ hkeeps ht h a x b heq := by
    rcases split_append heq with ⟨b', hb', rfl⟩ | ⟨a', -, hds⟩
    · exact goes hkeeps ht (h a x b' hb')
    · rcases ht.eq_nil_or_singleton with rfl | ⟨y, rfl⟩
      · simp at hds
      · rcases split_concat (s := []) hds with ⟨b', hb', -⟩ | ⟨-, rfl, rfl⟩
        · simp at hb'
        · exact starts ht

/-! The end of a chain. -/

/-- what a chain does at its end -/
def farewell (info : CloseInfo) : List Deed := [.shut, .published (.closed info)]

/-- How far a chain has come with its end: `b` has been done so far. -/
inductive Finishes (info : CloseInfo) : Station → List Deed → Prop
  | ending : Finishes info (.ending info) []
  | gone : Finishes info (.gone info) [.shut]
  | closed : Finishes info .closed (farewell info)
  | done : Finishes info .done (farewell info)

namespace Finishes

variable {info : CloseInfo} {i j : Station} {b ds : List Deed}

/-- A chain that is finishing does nothing else. -/
theorem turn {token : Token} {retryOnClose : Bool} (h : Finishes info i b) (ht : Turn token retryOnClose l k i ds j) :
    Finishes info j (b ++ ds) := by
  cases h with
  | ending =>
    cases ht with
    | pass _ hp =>
      cases hp with
      | rest => exact .ending
      | enter => exact .gone
  | gone =>
    cases ht with
    | pass _ hp =>
      cases hp with
      | rest => exact .gone
      | farewell => exact .closed
  | closed =>
    cases ht with
    | pass _ hp =>
      cases hp with
      | rest => exact .closed
      | finish => exact .done
  | done =>
    cases ht with
    | pass _ hp =>
      cases hp with
      | rest => exact .done

theorem initial (h : Finishes info i b) : b <+: farewell info ∧ (i = .done → b = farewell info) := by
  cases h with
  | ending | gone => exact ⟨⟨_, rfl⟩, nofun⟩
  | closed => exact ⟨List.prefix_rfl, nofun⟩
  | done => exact ⟨List.prefix_rfl, fun _ => rfl⟩

end Finishes

/-- some moves, one after the other, with their notes -/
def play (world : Surroundings) : List Move → List Note × Listener → Option (List Note × Listener)
  | [], s => some s
  | m :: r, (log, l) =>
    match l.step world m with
    | some k => play world r (log ++ notes m l k, k)
    | none => none

theorem noted_play {ms : List Move} {s : List Note × Listener} (h : Noted world session log l)
    (hplay : play world ms (log, l) = some s) : Noted world session s.1 s.2 := by
  induction ms generalizing log l with
  | nil =>
    cases Option.some.inj hplay
    exact h
  | cons m r ih =>
    rw [play] at hplay
    split at hplay
    · next k hstep => exact ih (h.step hstep) hplay
    · cases hplay

def Deed.isFailed : Deed → Bool
  | .failed _ => true
  | _ => false

theorem exists_failed {s : List Deed} (h : s.any Deed.isFailed) : ∃ e, Deed.failed e ∈ s := by
  obtain ⟨x, hx, hfailed⟩ := List.any_eq_true.1 h
  cases x with
  | failed e => exact ⟨e, hx⟩
  | _ => cases hfailed

/-- All dials succeed at once. -/
def openWorld : Surroundings := ⟨fun _ _ => ⟨0, none⟩, fun _ => 0⟩

/-- two retries for a socket that closes without a close frame -/
def scantSession : Session :=
  { plainSession "7" false with endpoints := ["ws://a/"], settings := ⟨0, [(1006, ⟨3, [0]⟩)], [], []⟩ }

/-- Whether the first call has succeeded. -/
def hasSucceeded (l : Listener) : Bool :=
  match l.work[0]? with
  | some (Work.start token true (.finished (.ok ()))) => token == ⟨[0]⟩
  | _ => false

theorem of_hasSucceeded (h : hasSucceeded l) : l.work[0]? = some (.start ⟨[0]⟩ true (.finished (.ok ()))) := by
  unfold hasSucceeded at h
  split at h
  · next token hcall =>
    rw [beq_iff_eq] at h
    rw [hcall, h]
  · cases h

/-- Whether it has handed over to a chain that is done. -/
def isOver (s : List Note × Listener) : Bool :=
  hasSucceeded s.2 &&
    match s.2.work[leader 0 s.1]? with
    | some (Work.chain parent .done) => parent == ⟨[0]⟩
    | _ => false

theorem of_isOver (h : isOver (log, l)) : l.work[0]? = some (.start ⟨[0]⟩ true (.finished (.ok ()))) ∧
    l.work[leader 0 log]? = some (.chain ⟨[0]⟩ .done) := by
  obtain ⟨hcall, hchain⟩ := Bool.and_eq_true_iff.1 h
  refine ⟨of_hasSucceeded hcall, ?_⟩
  split at hchain
  · next parent hdone =>
    rw [beq_iff_eq] at hchain
    rw [hdone, hchain]
  · cases hchain

end ChatWire.Listener
