import ChatWire.Proofs.Listener.Exclusion

/-! Streams that are reopened for a new chain. A chain that has entered the closed phase has still to close the streams,
and may do so when the next one has already reopened them; nothing else closes them as long as that one is under
way. -/

namespace ChatWire.Listener

/-- Whether a task has entered the closed phase and not yet closed the streams. -/
def Work.isLeaving : Work → Bool
  | .chain _ (.finishing _ stage) => stage == .announce || stage == .closeStreams
  | _ => false

/-- Whether task `i` has. -/
def isLeaving (i : Nat) (l : Listener) : Bool := (l.work[i]?).any Work.isLeaving

/-- Whether a call has claimed the listener and not yet reopened the streams. -/
def Work.isReopening : Work → Bool
  | .start _ _ .reopenTracker | .start _ _ .reopenStreams => true
  | _ => false

variable {world : Surroundings} {session : Session} {log : List Note} {l k m : Listener}

/-- What a step does to the streams while a chain is under way, and has reopened them: they stay as they are, and who
is about to close them is still about to; or the streams are closed. -/
theorem WorkStep.leaves {w w' : Work} (h : WorkStep world l w w' k) (hk : k.phase.isOpen)
    (hw : w.isReopening = false) :
    (w'.isLeaving = w.isLeaving ∧ k.events.closedFlags = l.events.closedFlags) ∨
      (w.isLeaving ∧ w'.isLeaving = false ∧ k.events.closedFlags = List.replicate 8 true) := by
  cases h with
  | start hs =>
    refine .inl ⟨rfl, ?_⟩
    cases hs with
    | dial hd => exact hd.steady.flags
    | reopenTracker | reopenStreams => cases hw
    | _ => rfl
  | stop hs =>
    refine .inl ⟨rfl, ?_⟩
    cases hs with
    | close hclosing => exact (Steady.stepClosing hclosing).flags
    | _ => rfl
  | @chain parent stage stage' _ hs =>
    cases hsteady : stage.isSteady with
    | true =>
      refine .inl ⟨?_, (hs.steady hsteady).1.flags⟩
      cases hs with
      | enter => cases hk
      | closeStreams => cases hsteady
      | handle hhandle => rcases handle_stage hhandle with rfl | rfl | ⟨es, ping, rfl⟩ <;> rfl
      | _ => rfl
    | false =>
      cases hs with
      | closeStreams => exact .inr ⟨rfl, rfl, Events.closedFlags_close _⟩
      | beginPing | finish => exact .inl ⟨rfl, rfl⟩
      | _ => cases hsteady
  | keepalive hs =>
    refine .inl ⟨rfl, ?_⟩
    cases hs <;> rfl

/-- Nobody begins to reopen the streams. -/
theorem WorkStep.isReopening {w w' : Work} (h : WorkStep world l w w' k) (hl : l.phase.isOpen)
    (hw : w.isReopening = false) : w'.isReopening = false := by
  cases h with
  | start hs =>
    cases hs with
    | claim hphase => exact absurd hphase (Phase.isOpen_iff.1 hl)
    | reopenTracker | reopenStreams => cases hw
    | _ => rfl
  | stop | chain | keepalive => rfl

/-- What has become of the streams since `m`, where they had just been reopened. -/
structure Reopened (m k : Listener) : Prop where
  before : ∀ {i}, k.isLeaving i → m.isLeaving i
  reopening : ∀ w ∈ k.work, w.isReopening = false
  untouched : (∀ i, m.isLeaving i → k.isLeaving i) → k.events.closedFlags = List.replicate 8 false
  touched : ∀ {i}, m.isLeaving i → k.isLeaving i = false → k.events.closedFlags = List.replicate 8 true

theorem isLeaving_append {vs : List Work} (hvs : k.work = l.work ++ vs) (hcalm : ∀ v ∈ vs, v.isLeaving = false)
    (i : Nat) : k.isLeaving i = l.isLeaving i := by
  rw [isLeaving, isLeaving, hvs, List.getElem?_append]
  split_ifs with hlt
  · rfl
  · rw [List.getElem?_eq_none (Nat.le_of_not_lt hlt)]
    cases hv : vs[i - l.work.length]? with
    | none => rfl
    | some v => exact hcalm v (List.mem_of_getElem? hv)

theorem isLeaving_setTask_self {n : Nat} {w : Work} (h : n < k.work.length) :
    (k.setTask n w).isLeaving n = w.isLeaving := by
  rw [isLeaving, getElem?_setTask_self w h]
  rfl

theorem isLeaving_setTask_ne {n i : Nat} {w : Work} (h : n ≠ i) : (k.setTask n w).isLeaving i = k.isLeaving i := by
  rw [isLeaving, setTask, List.getElem?_set_ne h, isLeaving]

namespace Reopened

/-- Nobody has closed the streams. -/
theorem apart {j : Listener} (h : Reopened m k) (hleaving : ∀ i, j.isLeaving i = k.isLeaving i)
    (hreopening : ∀ w ∈ j.work, w.isReopening = false) (hflags : j.events.closedFlags = k.events.closedFlags) :
    Reopened m j where
  before hi := h.before (hleaving _ ▸ hi)
  reopening := hreopening
  untouched hall := hflags.trans (h.untouched fun i hi => hleaving i ▸ hall i hi)
  touched hi hgone := hflags.trans (h.touched hi (hleaving _ ▸ hgone))

theorem step {n : Nat} {w w' : Work} {j : Listener} (h : Reopened m k) (hn : k.work[n]? = some w)
    (hstep : WorkStep world k w w' j) (hk : k.phase.isOpen) (hj : j.phase.isOpen) : Reopened m (j.setTask n w') := by
  obtain ⟨vs, hvs, hcalm⟩ : ∃ vs, j.work = k.work ++ vs ∧ ∀ v ∈ vs, v.isLeaving = false ∧ v.isReopening = false :=
    hstep.exists_spawned_of (fun _ _ => ⟨rfl, rfl⟩) fun _ _ _ _ => ⟨rfl, rfl⟩
  have hw := h.reopening w (List.mem_of_getElem? hn)
  have hself : (j.setTask n w').isLeaving n = w'.isLeaving := isLeaving_setTask_self (hstep.lt_length hn)
  have hother {i : Nat} (hne : n ≠ i) : (j.setTask n w').isLeaving i = k.isLeaving i := by
    rw [isLeaving_setTask_ne hne, isLeaving_append hvs fun v hv => (hcalm v hv).1]
  have hprior : k.isLeaving n = w.isLeaving := by
    rw [isLeaving, hn]
    rfl
  have hreopening : ∀ v ∈ (j.setTask n w').work, v.isReopening = false :=
    forall_mem_setTask (forall_mem_append hvs h.reopening fun v hv => (hcalm v hv).2) (hstep.isReopening hk hw)
  rcases hstep.leaves hj hw with ⟨hsame, hflags⟩ | ⟨hleaving, hgone, hflags⟩
  · refine h.apart ?_ hreopening hflags
    intro i
    by_cases hne : n = i
    · rw [← hne, hself, hsame, hprior]
    · exact hother hne
  · rw [hgone] at hself
    rw [hleaving] at hprior
    refine ⟨?_, hreopening, ?_, fun _ _ => hflags⟩
    · intro i hi
      by_cases hne : n = i
      · exact h.before (hne ▸ hprior)
      · exact h.before (hother hne ▸ hi)
    · intro hall
      rw [hall n (h.before hprior)] at hself
      cases hself

end Reopened

/-- A run on which a chain is under way all the time keeps account of the streams. -/
theorem Within.reopened (h : Within world (fun _ k => k.phase.isOpen) m k) (hopen : m.phase.isOpen)
    (hm : Reopened m m) : Reopened m k := by
  induction h with
  | refl => exact hm
  | @step k j move hrun hstep hj ih =>
    have hk : k.phase.isOpen := by
      cases hrun with
      | refl => exact hopen
      | step _ _ hk => exact hk
    rcases exists_work_or move with ⟨n, c, rfl⟩ | hmove
    · obtain ⟨w, w', k', hn, hwork, rfl⟩ := step_work hstep
      exact ih.step hn hwork hk hj
    · obtain ⟨-, -, vs, hvs, hfresh⟩ := step_outside hstep hmove
      have hcalm : ∀ v ∈ vs, v.isLeaving = false ∧ v.isReopening = false := by
        intro v hv
        rcases Work.eq_of_isFresh (hfresh v hv) with ⟨token, retryOnClose, rfl⟩ | rfl <;> exact ⟨rfl, rfl⟩
      exact ih.apart (isLeaving_append hvs fun v hv => (hcalm v hv).1)
        (forall_mem_append hvs ih.reopening fun v hv => (hcalm v hv).2) (step_still hstep hmove).flags

theorem Work.isActive_of_isReopening {w : Work} (h : w.isReopening) : w.isActive := by
  unfold isReopening at h
  split at h
  · rfl
  · rfl
  · cases h

/-- A call has just reopened the streams. -/
theorem reopened_self {n : Nat} {d : Dialing} {token : Token} {retryOnClose : Bool} (h : Noted world session log m)
    (hn : m.work[n]? = some (.start token retryOnClose (.dialing d)))
    (hflags : m.events.closedFlags = List.replicate 8 false) : Reopened m m ∧ m.phase.isOpen := by
  obtain ⟨K, hled⟩ := h.based.led
  refine ⟨⟨id, ?_, fun _ => hflags, ?_⟩, (hled.place hn rfl).1⟩
  · intro w hw
    obtain ⟨i, hi⟩ := List.getElem?_of_mem hw
    by_contra hreopening
    rw [Bool.not_eq_false] at hreopening
    obtain rfl := hled.single hi hn (Work.isActive_of_isReopening hreopening) rfl
    rw [Option.some.inj (hi.symm.trans hn)] at hreopening
    cases hreopening
  · intro i hi hgone
    rw [hi] at hgone
    cases hgone

/-- From the step in which a call reopens the streams on, as long as its chain is under way, all of them are open if
every earlier chain that had still to close them then has still to do so; otherwise all of them are closed. -/
theorem streams_stay_open {n : Nat} {c : Choice} {token : Token} {retryOnClose : Bool}
    (h : Noted world session log l) (hn : l.work[n]? = some (.start token retryOnClose .reopenStreams))
    (hstep : l.step world (.work n c) = some m) (hrun : Within world (fun _ k => k.phase.isOpen) m k) :
    (k.events.closedFlags = List.replicate 8 false ↔ ∀ i, m.isLeaving i → k.isLeaving i) ∧
      (k.events.closedFlags = List.replicate 8 false ∨ k.events.closedFlags = List.replicate 8 true) := by
  obtain ⟨hself, hopen⟩ : Reopened m m ∧ m.phase.isOpen := by
    have hnoted := h.step hstep
    obtain ⟨w, w', k', hw, hwork, rfl⟩ := step_work hstep
    obtain rfl := Option.some.inj (hn.symm.trans hw)
    have hlt := hwork.lt_length hn
    cases hwork with
    | start hs =>
      cases hs with
      | reopenStreams => exact reopened_self hnoted (getElem?_setTask_self _ hlt) (Events.closedFlags_reopen _)
  have hreopened := hrun.reopened hopen hself
  by_cases hall : ∀ i, m.isLeaving i → k.isLeaving i
  · have hflags := hreopened.untouched hall
    exact ⟨⟨fun _ => hall, fun _ => hflags⟩, .inl hflags⟩
  · obtain ⟨i, hi, hgone⟩ : ∃ i, m.isLeaving i ∧ k.isLeaving i = false := by
      simpa [not_forall] using hall
    have hflags := hreopened.touched hi hgone
    refine ⟨⟨?_, fun h => absurd h hall⟩, .inr hflags⟩
    intro hopened
    rw [hflags] at hopened
    cases hopened

/-- A connection is lost and not retried; its chain has entered the closed phase when another call claims the listener
and is about to reopen the streams. -/
def restartMoves : List Move :=
  .start ⟨[0]⟩ false :: (List.replicate 11 (Move.work 0 .proceed) ++
    .peerVanish 0 :: List.replicate 2 (Move.reader 0 .proceed) ++ List.replicate 8 (Move.work 1 .proceed) ++
    .start ⟨[1]⟩ false :: List.replicate 3 (Move.work 2 .proceed))

def isReopening (l : Listener) : Bool :=
  match l.work[2]? with
  | some (Work.start token false .reopenStreams) => token == ⟨[1]⟩
  | _ => false

/-- Whether the streams are reopened then, and what follows, with a chain under way all the time, is as `p` says. -/
def restarts (after : List Move) (p : Listener → Listener → Bool) : Bool :=
  (play openWorld restartMoves ([], create scantSession)).any fun s =>
    isReopening s.2 && (s.2.step openWorld (.work 2 .proceed)).any fun m =>
      (playWithin openWorld (fun _ k => k.phase.isOpen) after m).any (p m)

theorem of_restarts {after : List Move} {p : Listener → Listener → Bool} (h : restarts after p) :
    ∃ log l m k, Noted openWorld scantSession log l ∧ l.work[2]? = some (.start ⟨[1]⟩ false .reopenStreams) ∧
      l.step openWorld (.work 2 .proceed) = some m ∧ Within openWorld (fun _ k => k.phase.isOpen) m k ∧ p m k := by
  obtain ⟨⟨log, l⟩, hplay, hend⟩ := (Option.any_eq_true _ _).1 h
  obtain ⟨hcall, hend⟩ := Bool.and_eq_true_iff.1 hend
  obtain ⟨m, hstep, hend⟩ := (Option.any_eq_true _ _).1 hend
  obtain ⟨k, hrun, hp⟩ := (Option.any_eq_true _ _).1 hend
  refine ⟨log, l, m, k, noted_play .start hplay, ?_, hstep, within_playWithin id (.refl _) hrun, hp⟩
  unfold isReopening at hcall
  split at hcall
  · next token htask =>
    rw [beq_iff_eq] at hcall
    rw [htask, hcall]
  · cases hcall

/-- The new chain is connected, and the old one has said that it is closed, but not yet closed the streams. -/
theorem streams_stay_open_connected :
    ∃ log l m k, Noted openWorld scantSession log l ∧ l.step openWorld (.work 2 .proceed) = some m ∧
      Within openWorld (fun _ k => k.phase.isOpen) m k ∧ k.phase = .connected ∧ m.isLeaving 1 ∧
      k.events.closedFlags = List.replicate 8 false := by
  have hran : restarts (List.replicate 7 (Move.work 2 .proceed) ++ [.work 1 .proceed])
      (fun m k => k.phase == .connected && m.isLeaving 1 &&
        (List.range m.work.length).all fun i => !m.isLeaving i || k.isLeaving i) = true := by decide +kernel
  obtain ⟨log, l, m, k, hnoted, hcall, hstep, hrun, hend⟩ := of_restarts hran
  simp only [Bool.and_eq_true, beq_iff_eq, List.all_eq_true, List.mem_range, Bool.or_eq_true, Bool.not_eq_true'] at hend
  obtain ⟨⟨hphase, hleaving⟩, hall⟩ := hend
  refine ⟨log, l, m, k, hnoted, hstep, hrun, hphase, hleaving, ?_⟩
  refine (streams_stay_open hnoted hcall hstep hrun).1.2 ?_
  intro i hi
  have hlt : i < m.work.length := by
    by_contra hge
    rw [isLeaving, List.getElem?_eq_none (Nat.le_of_not_lt hge)] at hi
    cases hi
  exact (hall i hlt).resolve_left (by simp [hi])

/-- The new chain is connected, and the old one closes the streams after all. -/
theorem streams_stay_open_overtaken :
    ∃ log l m k, Noted openWorld scantSession log l ∧ l.work[2]? = some (.start ⟨[1]⟩ false .reopenStreams) ∧
      l.step openWorld (.work 2 .proceed) = some m ∧ Within openWorld (fun _ k => k.phase.isOpen) m k ∧
      k.phase = .connected ∧ k.events.closedFlags = List.replicate 8 true := by
  have hran : restarts (List.replicate 7 (Move.work 2 .proceed) ++ List.replicate 2 (Move.work 1 .proceed))
      (fun _ k => k.phase == .connected && k.events.closedFlags == List.replicate 8 true) = true := by decide +kernel
  obtain ⟨log, l, m, k, hnoted, hcall, hstep, hrun, hend⟩ := of_restarts hran
  simp only [Bool.and_eq_true, beq_iff_eq] at hend
  exact ⟨log, l, m, k, hnoted, hcall, hstep, hrun, hend.1, hend.2⟩

end ChatWire.Listener
