import ChatWire.Proofs.Listener.Exclusion

/-! What is known of the tasks in the background. The tracker counts those that have not finished, and the token of the
last chain is that of the task which leads the chain under way. -/

namespace ChatWire

namespace Tracker

variable (t : Tracker)

theorem running_note {before after : Tracker} : (note before after).running = after.running := by
  unfold note
  split <;> rfl

/-- A tracker that has just been emptied has no task. -/
theorem emptied_note {before after : Tracker} :
    (note before after).emptied = after.emptied ∨ after.running = 0 := by
  unfold note
  split_ifs with h
  · simp only [isDone, Bool.and_eq_true, beq_iff_eq] at h
    exact .inr h.1.2
  · exact .inl rfl

theorem running_exit : t.exit.running = t.running - 1 := running_note

theorem running_close : t.close.running = t.running := running_note

theorem emptied_exit : t.exit.emptied = t.emptied ∨ t.exit.running = 0 := by
  rw [running_exit]
  exact emptied_note

theorem emptied_close : t.close.emptied = t.emptied ∨ t.close.running = 0 := by
  rw [running_close]
  exact emptied_note

end Tracker

namespace Listener

variable {world : Surroundings} {session : Session} {log : List Note} {l k : Listener}

/-! The tasks that the tracker counts. -/

/-- Whether a task runs in the background and has not finished. -/
def Work.isTracked : Work → Bool
  | .chain _ .done | .keepalive _ _ .done => false
  | .chain .. | .keepalive .. => true
  | _ => false

/-- What a step of a task does to those in the background: nothing, or it starts one, or it is the last of its own. -/
inductive Tracks (l k : Listener) (w w' : Work) : Prop
  | same : k.tracker.running = l.tracker.running →
      k.tracker.emptied = l.tracker.emptied ∨ k.tracker.running = 0 → k.work = l.work →
        w'.isTracked = w.isTracked → Tracks l k w w'
  | starts {v : Work} : k.tracker = l.tracker.spawn → k.work = l.work ++ [v] → v.isTracked →
      w'.isTracked = w.isTracked → w.isTracked ∨ w.isSpawning → Tracks l k w w'
  | ends : k.tracker = l.tracker.exit → k.work = l.work → w.isTracked → w'.isTracked = false → Tracks l k w w'

/-- When there is no task in the background, none is started but by a call that hands its chain over. -/
theorem Tracks.settles {w w' : Work} (h : Tracks l k w w') (hspawn : w.isSpawning = false)
    (hw : w.isTracked → l.tracker.running ≠ 0) : (l.tracker.running = 0 → k.tracker.running = 0) ∧
      (k.tracker.emptied = l.tracker.emptied ∨ k.tracker.running = 0) := by
  cases h with
  | same hrunning hemptied => exact ⟨fun hzero => hrunning.trans hzero, hemptied⟩
  | starts htracker _ _ _ hw' =>
    rw [hspawn, or_iff_left Bool.false_ne_true] at hw'
    refine ⟨fun hzero => absurd hzero (hw hw'), .inl ?_⟩
    rw [htracker, Tracker.spawn]
  | ends htracker _ hw' =>
    refine ⟨fun hzero => absurd hzero (hw hw'), ?_⟩
    rw [htracker]
    exact l.tracker.emptied_exit

theorem Tracks.of_steady {w w' : Work} (h : Steady l k ∧ k.work = l.work) (hw : w'.isTracked = w.isTracked) :
    Tracks l k w w' :=
  .same (congrArg Tracker.running h.1.tracker) (.inl (congrArg Tracker.emptied h.1.tracker)) h.2 hw

theorem Work.isTracked_chain {parent : Token} {stage : Chain} (h : stage ≠ .done) :
    (Work.chain parent stage).isTracked := by
  cases stage with
  | done => exact absurd rfl h
  | _ => rfl

theorem ChainStep.ne_done {parent : Token} {chain chain' : Chain} (h : ChainStep world parent l chain chain' k)
    (hsteady : chain.isSteady) : chain' ≠ .done := by
  cases h with
  | finish => cases hsteady
  | handle hhandle => rcases handle_stage hhandle with rfl | rfl | ⟨es, ping, rfl⟩ <;> exact nofun
  | _ => exact nofun

theorem WorkStep.tracks {w w' : Work} (h : WorkStep world l w w' k) : Tracks l k w w' := by
  cases hsteady : w.isSteady with
  | true =>
    refine .of_steady (h.steady hsteady) ?_
    cases h with
    | start | stop => rfl
    | @chain parent stage stage' _ hs =>
      have hstage : stage ≠ .done := by
        rintro rfl
        cases hs
      rw [Work.isTracked_chain hstage, Work.isTracked_chain (hs.ne_done hsteady)]
    | keepalive hs =>
      cases hs with
      | begin => rfl
      | leave | broken | ping => cases hsteady
  | false =>
    cases h with
    | start hs =>
      cases hs with
      | claim | reopenTracker | reopenStreams | refuse => exact .same rfl (.inl rfl) rfl rfl
      | spawn => exact .starts rfl rfl rfl rfl (.inr rfl)
      | _ => cases hsteady
    | stop hs =>
      cases hs with
      | shut => exact .same (Tracker.running_close _) (Tracker.emptied_close _) rfl rfl
      | _ => cases hsteady
    | chain hs =>
      cases hs with
      | beginPing => exact .starts rfl rfl rfl rfl (.inl rfl)
      | closeStreams => exact .same rfl (.inl rfl) rfl rfl
      | finish => exact .ends rfl rfl rfl rfl
      | _ => cases hsteady
    | keepalive hs =>
      cases hs with
      | begin => cases hsteady
      | leave | broken => exact .ends rfl rfl rfl rfl
      | ping => exact .same rfl (.inl rfl) rfl rfl

theorem Work.isTracked_of_isFresh {w : Work} (h : w.isFresh) : w.isTracked = false := by
  rcases Work.eq_of_isFresh h with ⟨token, retryOnClose, rfl⟩ | rfl <;> rfl

/-- The tracker counts the tasks in the background. -/
def Counted (l : Listener) : Prop := l.tracker.running = l.work.countP Work.isTracked

theorem Counted.running_ne_zero {w : Work} (h : Counted l) (hw : w ∈ l.work) (htracked : w.isTracked) :
    l.tracker.running ≠ 0 := by
  rw [h]
  exact (List.countP_pos_iff.2 ⟨w, hw, htracked⟩).ne'

theorem countP_setTask {n : Nat} {w w' : Work} {ws : List Work} (hn : ws[n]? = some w) :
    (ws.set n w').countP Work.isTracked + (if w.isTracked then 1 else 0) =
      ws.countP Work.isTracked + (if w'.isTracked then 1 else 0) := by
  obtain ⟨hlt, rfl⟩ := List.getElem?_eq_some_iff.1 hn
  have hle : (if ws[n].isTracked then 1 else 0) ≤ ws.countP Work.isTracked := by
    split_ifs with htracked
    · exact List.countP_pos_iff.2 ⟨_, List.getElem_mem hlt, htracked⟩
    · exact Nat.zero_le _
  rw [List.countP_set hlt]
  omega

theorem Counted.step {n : Nat} {w w' : Work} (h : Counted l) (hn : l.work[n]? = some w)
    (hstep : WorkStep world l w w' k) : Counted (k.setTask n w') := by
  unfold Counted at h
  have hset {ws : List Work} (hws : k.work = ws) (hn : ws[n]? = some w) :
      (k.setTask n w').work.countP Work.isTracked + (if w.isTracked then 1 else 0) =
        ws.countP Work.isTracked + (if w'.isTracked then 1 else 0) := by
    rw [setTask, hws]
    exact countP_setTask hn
  change k.tracker.running = _
  cases hstep.tracks with
  | same hrunning _ hwork hw' =>
    have := hset hwork hn
    rw [hw'] at this
    omega
  | @starts v htracker hwork hv hw' _ =>
    have := hset hwork (hwork ▸ getElem?_of_append hwork hn)
    rw [hw', List.countP_append, List.countP_singleton, hv, if_pos rfl] at this
    rw [htracker, Tracker.spawn]
    dsimp only
    omega
  | ends htracker hwork hw hw' =>
    have := hset hwork hn
    rw [hw, hw', if_pos rfl, if_neg Bool.false_ne_true] at this
    rw [htracker, Tracker.running_exit]
    omega

theorem Noted.counted (h : Noted world session log l) : Counted l := by
  induction h with
  | start => rfl
  | @step log l k m hprev hstep ih =>
    rcases exists_work_or m with ⟨n, c, rfl⟩ | hm
    · obtain ⟨w, w', k', hn, hwork, rfl⟩ := step_work hstep
      exact ih.step hn hwork
    · obtain ⟨-, -, vs, hvs, hfresh⟩ := step_outside hstep hm
      have hnone : vs.countP Work.isTracked = 0 := by
        rw [List.countP_eq_zero]
        intro v hv
        rw [Work.isTracked_of_isFresh (hfresh v hv)]
        exact Bool.false_ne_true
      rw [Counted, (step_still hstep hm).tracker, hvs, List.countP_append, hnone]
      exact ih

/-! The token of the chain under way. -/

/-- the token that a chain goes by -/
def Work.token? : Work → Option Token
  | .start token _ _ => some token
  | .chain parent _ => some parent
  | _ => none

theorem WorkStep.token? {w w' : Work} (h : WorkStep world l w w' k) : w'.token? = w.token? := by
  cases h <;> rfl

/-- A step leaves the token of the last chain alone and begins no chain, or a call claims the listener: then it is the
token of that call. -/
theorem WorkStep.parent {w w' : Work} (h : WorkStep world l w w' k) :
    k.parent = l.parent ∧ (w'.isActive → w.isActive) ∨
      l.phase.isOpen = false ∧ k.phase.isOpen ∧ k.parent = w'.token? := by
  have hactive (hclaim : ∀ token retryOnClose, w ≠ .start token retryOnClose .claim) (hw' : w'.isActive) :
      w.isActive := by
    by_contra hw
    obtain ⟨-, -, token, retryOnClose, heq⟩ := h.claims (by simpa using hw) hw'
    exact hclaim token retryOnClose heq
  cases hsteady : w.isSteady with
  | true =>
    refine .inl ⟨(h.steady hsteady).1.parent, hactive ?_⟩
    rintro token retryOnClose rfl
    cases hsteady
  | false =>
    cases h with
    | start hs =>
      cases hs with
      | claim hphase => exact .inr ⟨Phase.isOpen_eq_false_iff.2 hphase, rfl, rfl⟩
      | refuse => exact .inl ⟨rfl, Bool.noConfusion⟩
      | reopenTracker | reopenStreams | spawn => exact .inl ⟨rfl, fun _ => rfl⟩
      | _ => cases hsteady
    | stop hs =>
      cases hs with
      | shut => exact .inl ⟨rfl, Bool.noConfusion⟩
      | _ => cases hsteady
    | chain hs =>
      cases hs with
      | beginPing | closeStreams | finish => exact .inl ⟨rfl, hactive nofun⟩
      | _ => cases hsteady
    | keepalive hs => cases hs <;> exact .inl ⟨rfl, Bool.noConfusion⟩

/-- The task that leads a chain goes by the token of the last chain. -/
def Parented (l : Listener) : Prop := ∀ w ∈ l.work, w.isActive → w.token? = l.parent

/-- A task that leads the chain from now on goes by the token of the one that has led it. -/
theorem WorkStep.exists_spawned_token {w w' : Work} (h : WorkStep world l w w' k) :
    ∃ vs, k.work = l.work ++ vs ∧ ∀ v ∈ vs, v.isActive → w.isActive ∧ v.token? = w.token? := by
  refine h.exists_spawned_of (fun _ _ => Bool.noConfusion) ?_
  rintro token retryOnClose link rfl _
  exact ⟨rfl, rfl⟩

theorem Parented.step {K : Nat → Option CipherKey} {n : Nat} {w w' : Work} (h : Parented l) (hled : Led K l)
    (hn : l.work[n]? = some w) (hstep : WorkStep world l w w' k) : Parented (k.setTask n w') := by
  obtain ⟨vs, hvs, hspawned⟩ := hstep.exists_spawned_token
  have hw := h w (List.mem_of_getElem? hn)
  intro v hv hactive
  change v.token? = k.parent
  rcases List.mem_or_eq_of_mem_set hv with hv | rfl
  · rw [hvs] at hv
    rcases hstep.parent with ⟨hparent, -⟩ | ⟨hclosed, -⟩
    · rw [hparent]
      rcases List.mem_append.1 hv with hv | hv
      · exact h v hv hactive
      · obtain ⟨hwactive, htoken⟩ := hspawned v hv hactive
        exact htoken.trans (hw hwactive)
    · -- Nobody leads a chain when a call claims the listener.
      obtain ⟨i, u, hi, hu⟩ : ∃ (i : Nat) (u : Work), l.work[i]? = some u ∧ u.isActive := by
        rcases List.mem_append.1 hv with hv | hv
        · obtain ⟨i, hi⟩ := List.getElem?_of_mem hv
          exact ⟨i, v, hi, hactive⟩
        · exact ⟨n, w, hn, (hspawned v hv hactive).1⟩
      rw [(hled.place hi hu).1] at hclosed
      cases hclosed
  · rcases hstep.parent with ⟨hparent, hprior⟩ | ⟨-, -, hparent⟩
    · rw [hparent, hstep.token?]
      exact hw (hprior hactive)
    · exact hparent.symm

theorem Noted.parented (h : Noted world session log l) : Parented l := by
  induction h with
  | start => exact fun _ hw => nomatch hw
  | @step log l k m hprev hstep ih =>
    rcases exists_work_or m with ⟨n, c, rfl⟩ | hm
    · obtain ⟨w, w', k', hn, hwork, rfl⟩ := step_work hstep
      obtain ⟨K, hled⟩ := hprev.based.led
      exact ih.step hled hn hwork
    · obtain ⟨-, -, vs, hvs, hfresh⟩ := step_outside hstep hm
      have hold : ∀ w ∈ l.work, w.isActive → w.token? = k.parent := by
        rw [(step_still hstep hm).parent]
        exact ih
      refine forall_mem_append hvs hold ?_
      intro w hw hactive
      rw [Work.isActive_of_isFresh (hfresh w hw)] at hactive
      cases hactive

end Listener

end ChatWire
