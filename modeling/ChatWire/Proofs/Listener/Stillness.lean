import ChatWire.Proofs.Listener.Possession
import ChatWire.Proofs.Listener.Tracking

/-! What a call that stops the listener leaves behind. It cancels the token of the last chain, and waits for the tasks in
the background; a call that is still dialing is no such task, and comes to its end by itself. -/

namespace ChatWire.Listener

/-- Whether a call has looked at its token for the second time, and not yet started its task in the background. -/
def Work.isHandingOver : Work → Bool
  | .start _ _ (.dialing (.announcing ..)) | .start _ _ (.dialing (.finished (.ok _))) | .start _ _ (.spawning _) => true
  | _ => false

/-- What is asked of the steps from the beginning of call `n`, which stops the listener. No call claims the listener;
no token is cancelled between the two looks of a dial, unless `cut`; and when call `n` cancels the token of the last
chain, no call is handing over. -/
structure Orderly (cut : Prop) (n : Nat) (l k : Listener) : Prop where
  unclaimed : k.phase.isOpen → l.phase.isOpen
  careful : Careful cut l k
  handed : ∀ {parent link}, l.work[n]? = some (.stop (.cancel parent link)) → k.work[n]? ≠ l.work[n]? →
    ∀ w ∈ l.work, w.isHandingOver = false

variable {world : Surroundings} {session : Session} {cut : Prop} {n i : Nat} {w w' : Work} {log : List Note}
  {l k m : Listener}

/-! Tasks that will start no chain. -/

/-- A task is not handing a chain over, and if it leads one, that has been cancelled. -/
structure Work.IsDoomed (l : Listener) (w : Work) : Prop where
  handed : w.isHandingOver = false
  cancelled : w.isActive → ∃ token, w.token? = some token ∧ l.isCancelled token

namespace Work.IsDoomed

theorem keeps (h : w.IsDoomed l) (hkeeps : Keeps l k) : w.IsDoomed k := by
  refine ⟨h.handed, ?_⟩
  intro hactive
  obtain ⟨token, htoken, hc⟩ := h.cancelled hactive
  exact ⟨token, htoken, hkeeps.cancelled token hc⟩

theorem of_isFresh (h : w.isFresh) : w.IsDoomed l := by
  rcases Work.eq_of_isFresh h with ⟨token, retryOnClose, rfl⟩ | rfl <;> exact ⟨rfl, Bool.noConfusion⟩

theorem isSpawning (h : w.IsDoomed l) : w.isSpawning = false := by
  have hover := h.handed
  cases w with
  | start token retryOnClose stage =>
    cases stage with
    | spawning => cases hover
    | _ => rfl
  | _ => rfl

/-- A call whose token is cancelled does not come to hand over. -/
theorem isHandingOver (h : w.IsDoomed l) (hstep : WorkStep world l w w' k) : w'.isHandingOver = false := by
  have hover := h.handed
  cases hstep with
  | start hs =>
    cases hs with
    | dial hd =>
      cases hd with
      | keep hlive =>
        obtain ⟨token, htoken, hc⟩ := h.cancelled rfl
        cases htoken
        rw [hlive] at hc
        cases hc
      | announce => cases hover
      | _ => rfl
    | dialed => cases hover
    | _ => rfl
  | stop | chain | keepalive => rfl

theorem step (h : w.IsDoomed l) (hstep : WorkStep world l w w' k) (hunclaimed : k.phase.isOpen → l.phase.isOpen) :
    w'.IsDoomed k := by
  refine ⟨h.isHandingOver hstep, ?_⟩
  intro hactive
  rcases hstep.parent with ⟨-, hprior⟩ | ⟨hclosed, hopen, -⟩
  · obtain ⟨token, htoken, hc⟩ := h.cancelled (hprior hactive)
    exact ⟨token, hstep.token?.trans htoken, hstep.keeps.cancelled token hc⟩
  · rw [hunclaimed hopen] at hclosed
    cases hclosed

/-- What it starts starts none either. -/
theorem exists_spawned (h : w.IsDoomed l) (hstep : WorkStep world l w w' k) :
    ∃ vs, k.work = l.work ++ vs ∧ ∀ v ∈ vs, v.IsDoomed l := by
  refine hstep.exists_spawned_of (fun _ _ => ⟨rfl, Bool.noConfusion⟩) ?_
  rintro token retryOnClose link rfl
  cases h.handed

end Work.IsDoomed

/-! The call that stops the listener. -/

theorem stop_unique {stage stage' : Stopping} (h : l.work[n]? = some (.stop stage))
    (h' : l.work[n]? = some (.stop stage')) : stage = stage' :=
  Work.stop.inj (Option.some.inj (h.symm.trans h'))

/-- No task will start a chain; and when call `n` may go on because the tracker was emptied, no task is left in the
background. -/
structure Stopped (n : Nat) (l : Listener) : Prop where
  doomed : ∀ w ∈ l.work, w.IsDoomed l
  waiting : ∀ {since}, l.work[n]? = some (.stop (.waiting since)) → since < l.tracker.emptied → l.tracker.running = 0
  finished : l.work[n]? = some (.stop .finished) → l.tracker.running = 0

/-- What the step of the call itself does to that. -/
theorem StopStep.settles {stage stage' : Stopping} (h : StopStep l stage stage' k)
    (hwaiting : ∀ {since}, stage = .waiting since → since < l.tracker.emptied → l.tracker.running = 0) :
    (∀ {since}, stage' = .waiting since → since < k.tracker.emptied → k.tracker.running = 0) ∧
      (stage' = .finished → k.tracker.running = 0) := by
  cases h with
  | join =>
    refine ⟨?_, ?_⟩
    · rintro since ⟨⟩ hlt
      exact absurd hlt (Nat.lt_irrefl _)
    · rintro ⟨⟩
  | finish hreleased =>
    refine ⟨?_, fun _ => ?_⟩
    · rintro since ⟨⟩
    · rw [Tracker.isReleased, Bool.or_eq_true, decide_eq_true_eq] at hreleased
      rcases hreleased with hdone | hlt
      · simp only [Tracker.isDone, Bool.and_eq_true, beq_iff_eq] at hdone
        exact hdone.2
      · exact hwaiting rfl hlt
  | @cancel token link | @skip link => cases link <;> refine ⟨?_, ?_⟩ <;> intros <;> contradiction
  | _ => refine ⟨?_, ?_⟩ <;> intros <;> contradiction

namespace Stopped

theorem step {stage : Stopping} (h : Stopped n l) (hcounted : Counted l) (hn : l.work[n]? = some (.stop stage))
    (hi : l.work[i]? = some w) (hstep : WorkStep world l w w' k) (hunclaimed : k.phase.isOpen → l.phase.isOpen) :
    Stopped n (k.setTask i w') := by
  have hmem := List.mem_of_getElem? hi
  have hw := h.doomed w hmem
  obtain ⟨vs, hvs, hspawned⟩ := hw.exists_spawned hstep
  have hdoomed : ∀ v ∈ (k.setTask i w').work, v.IsDoomed (k.setTask i w') := by
    refine forall_mem_setTask ?_ ((hw.step hstep hunclaimed).keeps (.setTask ..))
    intro v hv
    exact (forall_mem_append hvs h.doomed hspawned v hv).keeps (hstep.keeps.trans (.setTask ..))
  by_cases hne : i = n
  · subst hne
    obtain rfl := Option.some.inj (hn.symm.trans hi)
    have hself := getElem?_setTask_self w' (hstep.lt_length hi)
    cases hstep with
    | stop hs =>
      obtain ⟨hwaiting, hfinished⟩ := hs.settles fun heq => h.waiting (heq ▸ hn)
      exact ⟨hdoomed, fun hstage => hwaiting (stop_unique hself hstage),
        fun hstage => hfinished (stop_unique hself hstage)⟩
  · have hsame : (k.setTask i w').work[n]? = l.work[n]? := by rw [hn, getElem?_setTask_ne w' hvs hne hn]
    obtain ⟨hzero, hemptied⟩ := hstep.tracks.settles hw.isSpawning (hcounted.running_ne_zero hmem)
    refine ⟨hdoomed, ?_, ?_⟩
    · intro since hstage hlt
      rw [hsame] at hstage
      rcases hemptied with heq | hempty
      · exact hzero (h.waiting hstage (heq ▸ hlt))
      · exact hempty
    · intro hstage
      rw [hsame] at hstage
      exact hzero (h.finished hstage)

end Stopped

def Stopping.hasCancelled : Stopping → Bool
  | .look | .cancel .. => false
  | _ => true

/-- How far call `n` has come. -/
inductive Stops (n : Nat) (l : Listener) : Prop
  | look : l.work[n]? = some (.stop .look) → Stops n l
  | cancel {link : Option Nat} : l.work[n]? = some (.stop (.cancel l.parent link)) → Stops n l
  | stopped {stage : Stopping} : l.work[n]? = some (.stop stage) → stage.hasCancelled → Stopped n l → Stops n l

theorem StopStep.after_cancel {parent : Option Token} {link : Option Nat} {stage : Stopping}
    (h : StopStep l (.cancel parent link) stage k) :
    stage.hasCancelled ∧ (∀ since, stage ≠ .waiting since) ∧ stage ≠ .finished := by
  cases h <;> cases link <;> exact ⟨rfl, nofun, nofun⟩

namespace Stops

/-- Call `n` cancels the token of the last chain when no call is handing over. -/
theorem begin {stage : Stopping} {link : Option Nat} (hparented : Parented l)
    (hn : l.work[n]? = some (.stop (.cancel l.parent link))) (hover : ∀ v ∈ l.work, v.isHandingOver = false)
    (hstep : StopStep l (.cancel l.parent link) stage k) : Stops n (k.setTask n (.stop stage)) := by
  have hself : (k.setTask n (.stop stage)).work[n]? = some (.stop stage) := by
    refine getElem?_setTask_self _ ?_
    rw [hstep.quiet.work]
    exact (List.getElem?_eq_some_iff.1 hn).1
  have hdoomed : ∀ v ∈ l.work, v.IsDoomed k := by
    intro v hv
    refine ⟨hover v hv, ?_⟩
    intro hactive
    have htoken := hparented v hv hactive
    generalize l.parent = parent at hstep htoken
    cases hstep with
    | @cancel token => exact ⟨token, htoken, by simp [isCancelled, Listener.cancel, Cancellation.isCancelled_cancel]⟩
    | skip =>
      cases v with
      | start | chain => cases htoken
      | stop | keepalive => cases hactive
  obtain ⟨hpast, hwaiting, hfinished⟩ := hstep.after_cancel
  refine .stopped hself hpast ⟨?_, ?_, ?_⟩
  · refine forall_mem_setTask ?_ ⟨rfl, Bool.noConfusion⟩
    intro v hv
    rw [hstep.quiet.work] at hv
    exact (hdoomed v hv).keeps (.setTask ..)
  · exact fun {since} hstage => absurd (stop_unique hself hstage) (hwaiting since)
  · exact fun hstage => absurd (stop_unique hself hstage) hfinished

theorem step (h : Stops n l) (hcounted : Counted l) (hparented : Parented l) (hi : l.work[i]? = some w)
    (hstep : WorkStep world l w w' k) (horderly : Orderly cut n l (k.setTask i w')) : Stops n (k.setTask i w') := by
  obtain ⟨vs, hvs, -⟩ := hstep.exists_spawned
  by_cases hne : i = n
  · subst hne
    have hself := getElem?_setTask_self w' (hstep.lt_length hi)
    cases h with
    | look hn =>
      obtain rfl := Option.some.inj (hn.symm.trans hi)
      cases hstep with
      | stop hs =>
        cases hs with
        | look => exact .cancel hself
    | cancel hn =>
      obtain rfl := Option.some.inj (hn.symm.trans hi)
      cases hstep with
      | @stop _ stage _ hs =>
        refine begin hparented hn (horderly.handed hn ?_) hs
        intro heq
        have hpast := hs.after_cancel.1
        rw [stop_unique hself (heq.trans hn)] at hpast
        cases hpast
    | stopped hn hpast hstopped =>
      have hstopped' := hstopped.step hcounted hn hi hstep horderly.unclaimed
      obtain rfl := Option.some.inj (hn.symm.trans hi)
      cases hstep with
      | stop hs =>
        refine .stopped hself ?_ hstopped'
        cases hs <;> first | rfl | cases hpast
  · have hsame {v : Work} (hn : l.work[n]? = some v) : (k.setTask i w').work[n]? = some v :=
      getElem?_setTask_ne w' hvs hne hn
    cases h with
    | look hn => exact .look (hsame hn)
    | cancel hn =>
      rcases hstep.parent with ⟨hparent, -⟩ | ⟨hclosed, hopen, -⟩
      · rw [← hparent] at hn
        exact .cancel (hsame hn)
      · rw [horderly.unclaimed hopen] at hclosed
        cases hclosed
    | stopped hn hpast hstopped =>
      exact .stopped (hsame hn) hpast (hstopped.step hcounted hn hi hstep horderly.unclaimed)

/-- What is not a step of a task does not matter. -/
theorem outside {vs : List Work} (h : Stops n l) (hkeeps : Keeps l k) (hsteady : Steady l k)
    (hvs : k.work = l.work ++ vs) (hfresh : ∀ v ∈ vs, v.isFresh) : Stops n k := by
  have hsame {v : Work} (hn : l.work[n]? = some v) : k.work[n]? = some v := getElem?_of_append hvs hn
  cases h with
  | look hn => exact .look (hsame hn)
  | cancel hn =>
    rw [← hsteady.parent] at hn
    exact .cancel (hsame hn)
  | stopped hn hpast hstopped =>
    have heq := (hsame hn).trans hn.symm
    refine .stopped (hsame hn) hpast ⟨?_, ?_, ?_⟩
    · exact forall_mem_append hvs (fun v hv => (hstopped.doomed v hv).keeps hkeeps)
        fun v hv => .of_isFresh (hfresh v hv)
    · intro since hstage
      rw [hsteady.tracker]
      exact hstopped.waiting (heq ▸ hstage)
    · intro hstage
      rw [hsteady.tracker]
      exact hstopped.finished (heq ▸ hstage)

end Stops

theorem Within.stops (h : Within world (Orderly cut n) l k) (hl : Noted world session log l) (hstops : Stops n l) :
    Stops n k := by
  induction h with
  | refl => exact hstops
  | @step k j move hrun hstep horderly ih =>
    obtain ⟨log, hnoted⟩ := hrun.noted hl
    rcases exists_work_or move with ⟨i, c, rfl⟩ | hmove
    · obtain ⟨w, w', k', hi, hwork, rfl⟩ := step_work hstep
      exact ih.step hnoted.counted hnoted.parented hi hwork horderly
    · obtain ⟨hkeeps, -, vs, hvs, hfresh⟩ := step_outside hstep hmove
      exact ih.outside hkeeps (step_still hstep hmove).toSteady hvs hfresh

/-! What is left. -/

/-- The phase is idle or closed, unless a call is still under way whose token is cancelled, and which will not hand over;
no connection is held unless there was a cancellation between two looks; and there is no task in the background. -/
structure AtRest (cut : Prop) (l : Listener) : Prop where
  phase : l.phase = .idle ∨ l.phase = .closed ∨ ∃ (i : Nat) (token : Token) (retryOnClose : Bool) (stage : Starting),
    l.work[i]? = some (.start token retryOnClose stage) ∧ stage.isActive ∧ l.isCancelled token
  connection : ∀ {c}, l.connection = some c → cut
  tasks : ∀ w ∈ l.work, w.isTracked = false

theorem Work.isTracked_of_isActive {parent : Token} {stage : Chain} (h : stage.isActive) :
    (Work.chain parent stage).isTracked := by
  apply isTracked_chain
  rintro rfl
  cases h

theorem Dialing.Frees.cut_of_held {d : Dialing} {token : Token} {retryOnClose : Bool} {link : Nat}
    (h : d.Frees cut token l) (hover : (Work.start token retryOnClose (.dialing d)).isHandingOver = false)
    (hc : l.isCancelled token) (hheld : l.heldLink? = some link) : cut := by
  cases d with
  | installed => exact (h hc hheld).1
  | announcing => cases hover
  | finished r =>
    cases r with
    | ok => cases hover
    | error => exact (h hheld).1
  | _ => exact (h hheld).1

/-- A call that will not hand over holds no connection, unless there was a cancellation between two looks. -/
theorem Starting.Frees.cut_of_held {stage : Starting} {token : Token} {retryOnClose : Bool} {link : Nat}
    (h : stage.Frees cut token l) (hactive : stage.isActive)
    (hover : (Work.start token retryOnClose stage).isHandingOver = false) (hc : l.isCancelled token)
    (hheld : l.heldLink? = some link) : cut := by
  cases stage with
  | check | claim | finished => cases hactive
  | dialing d => exact Dialing.Frees.cut_of_held h hover hc hheld
  | spawning => cases hover
  | _ => exact (h hheld).1

namespace Stopped

theorem exists_call (h : Stopped n l) (htasks : ∀ w ∈ l.work, w.isTracked = false) (hstaffed : Staffed l)
    (hopen : l.phase.isOpen) : ∃ (i : Nat) (token : Token) (retryOnClose : Bool) (stage : Starting),
      l.work[i]? = some (.start token retryOnClose stage) ∧ stage.isActive ∧ l.isCancelled token := by
  obtain ⟨i, w, hi, hactive⟩ := hstaffed hopen
  have hmem := List.mem_of_getElem? hi
  cases w with
  | start token retryOnClose stage =>
    obtain ⟨t, ht, hc⟩ := (h.doomed _ hmem).cancelled hactive
    cases ht
    exact ⟨i, token, retryOnClose, stage, hi, hactive, hc⟩
  | chain parent stage =>
    have htracked := htasks _ hmem
    rw [Work.isTracked_of_isActive hactive] at htracked
    cases htracked
  | stop | keepalive => cases hactive

theorem atRest (h : Stopped n l) (hempty : l.tracker.running = 0) (hcounted : Counted l) (hstaffed : Staffed l)
    (hp : Possession cut l) : AtRest cut l := by
  have htasks : ∀ w ∈ l.work, w.isTracked = false := by
    rw [hcounted, List.countP_eq_zero] at hempty
    intro w hw
    simpa using hempty w hw
  refine ⟨?_, ?_, htasks⟩
  · cases hopen : l.phase.isOpen with
    | true => exact .inr (.inr (h.exists_call htasks hstaffed hopen))
    | false =>
      rcases Phase.isOpen_eq_false_iff.1 hopen with hphase | hphase
      · exact .inl hphase
      · exact .inr (.inl hphase)
  · intro c hc
    have hheld : l.heldLink? = some c.link := by rw [heldLink?, hc]; rfl
    by_cases hphase : l.phase = .connected
    · obtain ⟨i, token, retryOnClose, stage, hi, hactive, hcancelled⟩ :=
        h.exists_call htasks hstaffed (by rw [hphase]; rfl)
      have hmem := List.mem_of_getElem? hi
      exact Starting.Frees.cut_of_held (hp.frees _ hmem) hactive (h.doomed _ hmem).handed hcancelled hheld
    · exact (hp.vacant hphase hheld).1

/-- Calls that will not hand over publish nothing, and there is nobody else. -/
theorem history (h : Stopped n l) (htasks : ∀ v ∈ l.work, v.isTracked = false) (hi : l.work[i]? = some w)
    (hstep : WorkStep world l w w' k) : k.history = l.history := by
  have hmem := List.mem_of_getElem? hi
  have hover := (h.doomed w hmem).handed
  have htracked := htasks w hmem
  cases hstep with
  | start hs =>
    cases hs with
    | dial hd =>
      cases hd with
      | announce => cases hover
      | install => exact (install_emits ..).history.trans (List.append_nil _)
      | close hclosing => exact (Rests.stepClosing hclosing).history
      | _ => rfl
    | _ => rfl
  | stop hs => exact hs.rests.history
  | @chain parent stage _ _ hs =>
    rw [Work.isTracked_chain] at htracked
    · cases htracked
    · rintro rfl
      cases hs
  | keepalive hs => exact hs.rests.history

end Stopped

/-- A call that has stopped the listener has nothing more to do. -/
theorem finished_step {move : Move} (h : l.work[n]? = some (.stop .finished)) (hstep : l.step world move = some k) :
    k.work[n]? = some (.stop .finished) := by
  rcases exists_work_or move with ⟨i, c, rfl⟩ | hmove
  · obtain ⟨w, w', k', hi, hwork, rfl⟩ := step_work hstep
    obtain ⟨vs, hvs, -⟩ := hwork.exists_spawned
    refine getElem?_setTask_ne w' hvs ?_ h
    rintro rfl
    obtain rfl := Option.some.inj (h.symm.trans hi)
    cases hwork with
    | stop hs => cases hs
  · obtain ⟨-, -, vs, hvs, -⟩ := step_outside hstep hmove
    exact getElem?_of_append hvs h

/-- Once a call that stops the listener has returned, and as long as no call claims the listener, all is at rest, and
nothing is published: the streams hold what they held. This is so if no call was handing over when the token was cancelled, and whether or not a call
was still dialing then, or has been turned away since. -/
theorem stop_leaves_nothing_behind (h : Within world (Careful cut) (create session) l)
    (hn : l.work[n]? = some (.stop .look)) (hrun : Within world (Orderly cut n) l k)
    (hdone : k.work[n]? = some (.stop .finished)) (hlater : Within world (Orderly cut n) k m) :
    AtRest cut m ∧ m.history = k.history ∧
      ∀ {es}, k.events.Holds Events.defaultCapacity es → m.events.Holds Events.defaultCapacity es := by
  obtain ⟨log, hnoted⟩ := h.noted (.start : Noted world session [] _)
  have hp := h.possession .start id (possession_create session)
  have hrest {j : Listener} (hj : Within world (Orderly cut n) l j) (hdone : j.work[n]? = some (.stop .finished)) :
      Stopped n j ∧ AtRest cut j := by
    obtain ⟨log', hnoted'⟩ := hj.noted hnoted
    cases hj.stops hnoted (.look hn) with
    | look heq | cancel heq => cases heq.symm.trans hdone
    | stopped _ _ hstopped =>
      exact ⟨hstopped, hstopped.atRest (hstopped.finished hdone) hnoted'.counted hnoted'.staffed
        (hj.possession hnoted (fun ho => ho.careful) hp)⟩
  have hlast : m.work[n]? = some (.stop .finished) ∧ Publishes [] k m := by
    induction hlater with
    | refl => exact ⟨hdone, .same rfl rfl⟩
    | @step j m move hprior hstep _ ih =>
      obtain ⟨hfinished, hpublishes⟩ := ih
      obtain ⟨hstopped, hatRest⟩ := hrest (hrun.trans hprior) hfinished
      obtain ⟨log', hnoted'⟩ := (hrun.trans hprior).noted hnoted
      have hsame : m.history = j.history := by
        rcases exists_work_or move with ⟨i, c, rfl⟩ | hmove
        · obtain ⟨w, w', k', hi, hwork, rfl⟩ := step_work hstep
          have hsame : k'.history = j.history := hstopped.history hatRest.tasks hi hwork
          exact hsame
        · exact (step_still hstep hmove).history
      have hmove := hnoted'.publishes hstep
      rw [List.append_right_eq_self.1 (hmove.history.symm.trans hsame)] at hmove
      exact ⟨finished_step hfinished hstep, hpublishes.trans hmove⟩
  obtain ⟨hfinished, hpublishes⟩ := hlast
  refine ⟨(hrest (hrun.trans hlater) hfinished).2, hpublishes.history.trans (List.append_nil _), ?_⟩
  intro es hes
  exact List.append_nil es ▸ hpublishes.holds hes

/-- Whether task `n` is a call that stops the listener, in some stage. -/
def isStopping (n : Nat) (stage : Stopping) (l : Listener) : Bool :=
  match l.work[n]? with
  | some (Work.stop s) => s == stage
  | _ => false

theorem of_isStopping {stage : Stopping} (h : isStopping n stage l) : l.work[n]? = some (.stop stage) := by
  unfold isStopping at h
  split at h
  · next s hs =>
    rw [beq_iff_eq] at h
    rw [hs, h]
  · cases h

/-- Whether a step claims nothing, cancels no token between two looks, and starts where no call is handing over. -/
def isOrderly (l k : Listener) : Bool :=
  (!k.phase.isOpen || l.phase.isOpen) && !cutsIn l k && l.work.all fun w => !w.isHandingOver

theorem orderly_of_isOrderly (h : isOrderly l k) : Orderly False n l k := by
  rw [isOrderly, Bool.and_eq_true, Bool.and_eq_true, Bool.or_eq_true] at h
  obtain ⟨⟨hunclaimed, hcut⟩, hover⟩ := h
  refine ⟨fun hopen => hunclaimed.resolve_left (by simp [hopen]), careful_of_not_cutsIn hcut, fun _ _ => ?_⟩
  simpa using hover

/-- A call stops a chain that is connected: it closes the connection, and waits for the chain to finish. -/
def stopMoves : List Move :=
  List.replicate 5 (Move.work 2 .proceed) ++ .wait 2000 :: List.replicate 5 (Move.work 2 .proceed) ++
    List.replicate 14 (Move.work 1 .proceed) ++ [.work 2 .proceed]

theorem stop_leaves_nothing_behind_connected :
    ∃ l k, Within openWorld (Careful False) (create scantSession) l ∧ l.phase = .connected ∧
      l.work[2]? = some (.stop .look) ∧ Within openWorld (Orderly False 2) l k ∧
      k.work[2]? = some (.stop .finished) ∧ k.history.length = 3 ∧ k.connection = none ∧
      ∀ w ∈ k.work, w.isTracked = false := by
  have hran : (playWithin openWorld (fun l k => !cutsIn l k)
      (.start ⟨[0]⟩ true :: (List.replicate 11 (Move.work 0 .proceed) ++ [.stop])) (create scantSession)).any
      (fun l => l.phase == .connected && isStopping 2 .look l && (playWithin openWorld isOrderly stopMoves l).any
        fun k => isStopping 2 .finished k && k.history.length == 3) = true := by decide +kernel
  obtain ⟨l, hplay, hend⟩ := (Option.any_eq_true _ _).1 hran
  simp only [Bool.and_eq_true, beq_iff_eq] at hend
  obtain ⟨⟨hphase, hlook⟩, hend⟩ := hend
  obtain ⟨k, hstop, hend⟩ := (Option.any_eq_true _ _).1 hend
  simp only [Bool.and_eq_true, beq_iff_eq] at hend
  have hl : Within openWorld (Careful False) (create scantSession) l :=
    within_playWithin careful_of_not_cutsIn (.refl _) hplay
  have hk : Within openWorld (Orderly False 2) l k := within_playWithin orderly_of_isOrderly (.refl _) hstop
  obtain ⟨hrest, -⟩ := stop_leaves_nothing_behind hl (of_isStopping hlook) hk (of_isStopping hend.1) (.refl k)
  refine ⟨l, k, hl, hphase, of_isStopping hlook, hk, of_isStopping hend.1, hend.2, ?_, hrest.tasks⟩
  cases hc : k.connection with
  | none => rfl
  | some c => exact (hrest.connection hc).elim

/-- Every dial takes its time. -/
def slowWorld : Surroundings := ⟨fun _ _ => ⟨100, none⟩, fun _ => 0⟩

/-- A call stops the listener while the only call that starts it is still dialing. It returns, and the phase is neither
idle nor closed. -/
theorem stop_leaves_nothing_behind_dialing :
    ∃ log l, Noted slowWorld scantSession log l ∧ l.work.length = 2 ∧ l.work[1]? = some (.stop .finished) ∧
      l.phase = .connecting := by
  have hran : (play slowWorld (.start ⟨[0]⟩ true :: (List.replicate 5 (Move.work 0 .proceed) ++
      .stop :: List.replicate 5 (Move.work 1 .proceed))) ([], create scantSession)).any
      (fun s => s.2.work.length == 2 && isStopping 1 .finished s.2 && s.2.phase == .connecting) = true := by
    decide +kernel
  obtain ⟨⟨log, l⟩, hplay, hend⟩ := (Option.any_eq_true _ _).1 hran
  simp only [Bool.and_eq_true, beq_iff_eq] at hend
  exact ⟨log, l, noted_play .start hplay, hend.1.1, of_isStopping hend.1.2, hend.2⟩

/-- A call stops the listener while the only call that starts it is handing over. It returns; then the connection is
announced, and a task is started in the background, though no call has claimed the listener. -/
theorem stop_while_handing_over :
    ∃ log l k, Noted openWorld scantSession log l ∧ l.work.length = 2 ∧ l.work[1]? = some (.stop .finished) ∧
      Within openWorld (fun l k => k.phase.isOpen → l.phase.isOpen) l k ∧ l.history.length < k.history.length ∧
      ∃ w ∈ k.work, w.isTracked := by
  have hran : (play openWorld (.start ⟨[0]⟩ true :: (List.replicate 8 (Move.work 0 .proceed) ++
      .stop :: List.replicate 5 (Move.work 1 .proceed) ++ .wait 2000 :: List.replicate 6 (Move.work 1 .proceed)))
      ([], create scantSession)).any
      (fun s => s.2.work.length == 2 && isStopping 1 .finished s.2 &&
        (playWithin openWorld (fun l k => !k.phase.isOpen || l.phase.isOpen) (List.replicate 3 (Move.work 0 .proceed))
          s.2).any fun k => s.2.history.length < k.history.length && k.work.any Work.isTracked) = true := by
    decide +kernel
  obtain ⟨⟨log, l⟩, hplay, hend⟩ := (Option.any_eq_true _ _).1 hran
  simp only [Bool.and_eq_true, beq_iff_eq] at hend
  obtain ⟨⟨hlength, hfinished⟩, hend⟩ := hend
  obtain ⟨k, hrun, hend⟩ := (Option.any_eq_true _ _).1 hend
  simp only [Bool.and_eq_true, decide_eq_true_eq, List.any_eq_true] at hend
  refine ⟨log, l, k, noted_play .start hplay, hlength, of_isStopping hfinished, ?_, hend⟩
  refine within_playWithin ?_ (.refl _) hrun
  intro l k hunclaimed hopen
  exact (Bool.or_eq_true_iff.1 hunclaimed).resolve_left (by simp [hopen])

end ChatWire.Listener
