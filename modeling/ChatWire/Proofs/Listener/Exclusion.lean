import ChatWire.Proofs.Listener.Steady

/-! Chains exclude each other. A chain is under way from the step in which its call claims the listener to the one that
enters the closed phase, and all the time the phase keeps other calls out; only the task that leads the chain that is
under way dials, changes which connection is held, or handles what comes in. -/

namespace ChatWire.Listener

variable {world : Surroundings} {session : Session} {log : List Note} {l k : Listener}

/-! Calls, and the tasks that lead their chains. -/

/-- Whether task `n` is a call that starts the listener. -/
def IsCall (n : Nat) (l : Listener) : Prop :=
  ∃ token retryOnClose stage, l.work[n]? = some (.start token retryOnClose stage)

theorem Noted.exists_head {token : Token} {retryOnClose : Bool} {n : Nat} {stage : Starting}
    (h : Noted world session log l) (hn : l.work[n]? = some (.start token retryOnClose stage)) :
    ∃ w, l.work[leader n log]? = some w ∧ IsHead token retryOnClose l n (leader n log) w := by
  have htrivial : Invariant session token retryOnClose fun _ _ _ => True :=
    ⟨fun _ => trivial, fun _ _ _ => trivial, fun _ _ _ _ => trivial⟩
  obtain ⟨w, hw, hhead, -⟩ := htrivial.stands h hn
  exact ⟨w, hw, hhead⟩

/-- A call that has not handed over leads its chain itself. -/
theorem Noted.leader_eq_self {token : Token} {retryOnClose : Bool} {n : Nat} {stage : Starting}
    (h : Noted world session log l) (hn : l.work[n]? = some (.start token retryOnClose stage))
    (hstage : stage.hasHandedOver = false) : leader n log = n := by
  obtain ⟨w, -, hhead⟩ := h.exists_head hn
  generalize leader n log = m at hhead
  cases hhead with
  | call => rfl
  | chain hcall =>
    cases Option.some.inj (hn.symm.trans hcall)
    cases hstage

theorem Noted.leader_lt {n : Nat} (h : Noted world session log l) (hn : IsCall n l) :
    leader n log < l.work.length := by
  obtain ⟨token, retryOnClose, stage, hn⟩ := hn
  obtain ⟨w, hw, -⟩ := h.exists_head hn
  exact (List.getElem?_eq_some_iff.1 hw).1

/-- A call that has just been made leads itself. -/
theorem Noted.leader_of_isFresh {vs : List Work} {n : Nat} (h : Noted world session log k)
    (hvs : k.work = l.work ++ vs) (hfresh : ∀ v ∈ vs, v.isFresh) (hn : IsCall n k) (hle : l.work.length ≤ n) :
    leader n log = n := by
  obtain ⟨token, retryOnClose, stage, hn⟩ := hn
  refine h.leader_eq_self hn ?_
  rw [hvs, List.getElem?_append_right hle] at hn
  rcases Work.eq_of_isFresh (hfresh _ (List.mem_of_getElem? hn)) with ⟨_, _, heq⟩ | heq <;> cases heq
  rfl

theorem leader_notes {n : Nat} {c : Choice} {w : Work} (hn : l.work[n]? = some w) (hspawn : w.isSpawning = false)
    (m : Nat) : leader m (notes (.work n c) l k) = m := by
  rw [notes_work hn hspawn]
  exact leader_did n m _

theorem leader_notes_spawning {n : Nat} {c : Choice} {w : Work} (hn : l.work[n]? = some w) (hspawn : w.isSpawning)
    (m : Nat) : leader m (notes (.work n c) l k) = if n = m then l.work.length else m := by
  rw [notes_spawning hn hspawn]
  rfl

/-- A step of a task makes no call. -/
theorem WorkStep.isCall {n i : Nat} {w w' : Work} (h : WorkStep world l w w' k) (hn : l.work[n]? = some w)
    (hi : IsCall i (k.setTask n w')) : IsCall i l := by
  obtain ⟨vs, hvs, hfresh⟩ := h.exists_spawned
  obtain ⟨token, retryOnClose, stage, hi⟩ := hi
  rcases getElem?_setTask hvs hi with ⟨rfl, rfl⟩ | ⟨-, hi⟩ | ⟨-, hi⟩
  · cases h with
    | start => exact ⟨_, _, _, hn⟩
  · exact ⟨_, _, _, hi⟩
  · exact absurd rfl ((hfresh _ (List.mem_of_getElem? hi)).2 _ _ _)

theorem IsCall.step {n i : Nat} {w w' : Work} (h : IsCall i l) (hn : l.work[n]? = some w)
    (hstep : WorkStep world l w w' k) : IsCall i (k.setTask n w') := by
  obtain ⟨vs, hvs, -⟩ := hstep.exists_spawned
  obtain ⟨token, retryOnClose, stage, hi⟩ := h
  by_cases hne : n = i
  · subst hne
    obtain rfl := Option.some.inj (hn.symm.trans hi)
    have hlt := hstep.lt_length hn
    cases hstep with
    | start => exact ⟨_, _, _, getElem?_setTask_self _ hlt⟩
  · exact ⟨_, _, _, getElem?_setTask_ne w' hvs hne hi⟩

/-- A step that hands no chain over starts none. -/
theorem WorkStep.exists_chain {n j : Nat} {w w' : Work} {parent : Token} {stage : Chain}
    (h : WorkStep world l w w' k) (hn : l.work[n]? = some w) (hspawn : w.isSpawning = false)
    (hj : (k.setTask n w').work[j]? = some (.chain parent stage)) :
    ∃ stage, l.work[j]? = some (.chain parent stage) := by
  obtain ⟨vs, hvs, hping⟩ : ∃ vs, k.work = l.work ++ vs ∧ ∀ v ∈ vs, ∃ on t, v = .keepalive on t .starting := by
    refine h.exists_spawned_of (fun on t => ⟨on, t, rfl⟩) ?_
    rintro token retryOnClose link rfl
    cases hspawn
  rcases getElem?_setTask hvs hj with ⟨rfl, rfl⟩ | ⟨-, hj⟩ | ⟨-, hj⟩
  · cases h with
    | chain => exact ⟨_, hn⟩
  · exact ⟨_, hj⟩
  · obtain ⟨on, t, heq⟩ := hping _ (List.mem_of_getElem? hj)
    cases heq

/-- No two calls share a task, and every chain is some call's. -/
structure Matched (log : List Note) (l : Listener) : Prop where
  single : ∀ {i j : Nat}, IsCall i l → IsCall j l → leader i log = leader j log → i = j
  owned : ∀ {j : Nat} {parent : Token} {stage : Chain}, l.work[j]? = some (.chain parent stage) →
    ∃ i, IsCall i l ∧ leader i log = j

namespace Matched

variable {n : Nat} {c : Choice} {w w' : Work}

theorem step_quiet (h : Matched log l) (hn : l.work[n]? = some w) (hstep : WorkStep world l w w' k)
    (hspawn : w.isSpawning = false) : Matched (log ++ notes (.work n c) l (k.setTask n w')) (k.setTask n w') := by
  have hleader (i : Nat) : leader i (log ++ notes (.work n c) l (k.setTask n w')) = leader i log := by
    rw [leader_append, leader_notes hn hspawn]
  refine ⟨?_, ?_⟩
  · intro i j hi hj heq
    rw [hleader, hleader] at heq
    exact h.single (hstep.isCall hn hi) (hstep.isCall hn hj) heq
  · intro j parent stage hj
    obtain ⟨stage, hold⟩ := hstep.exists_chain hn hspawn hj
    obtain ⟨i, hi, heq⟩ := h.owned hold
    exact ⟨i, hi.step hn hstep, (hleader i).trans heq⟩

/-- The call at `n`, which leads its own chain, hands it over to a new task. -/
theorem step_spawning (h : Matched log l) (hself : leader n log = n)
    (hlt : ∀ {i}, IsCall i l → leader i log < l.work.length) (hn : l.work[n]? = some w)
    (hstep : WorkStep world l w w' k) (hspawn : w.isSpawning) :
    Matched (log ++ notes (.work n c) l (k.setTask n w')) (k.setTask n w') := by
  have hleader (i : Nat) : leader i (log ++ notes (.work n c) l (k.setTask n w')) =
      if n = leader i log then l.work.length else leader i log := by
    rw [leader_append, leader_notes_spawning hn hspawn]
  refine ⟨?_, ?_⟩
  · intro i j hi hj heq
    have hi := hstep.isCall hn hi
    have hj := hstep.isCall hn hj
    have hleaders : leader i log = leader j log := by
      rw [hleader, hleader] at heq
      have := hlt hi
      have := hlt hj
      split_ifs at heq <;> omega
    exact h.single hi hj hleaders
  · intro j parent stage hj
    rcases hstep.work_cases with ⟨hnot, -⟩ | ⟨token, retryOnClose, link, rfl, rfl, rfl⟩
    · rw [hspawn] at hnot
      cases hnot
    · have hcall : IsCall n l := ⟨_, _, _, hn⟩
      rcases getElem?_setTask rfl hj with ⟨-, heq⟩ | ⟨hne, hj⟩ | ⟨hle, hj⟩
      · cases heq
      · obtain ⟨i, hi, heq⟩ := h.owned hj
        refine ⟨i, hi.step hn hstep, ?_⟩
        rw [hleader, heq, if_neg (Ne.symm hne)]
      · refine ⟨n, hcall.step hn hstep, ?_⟩
        have := (List.getElem?_eq_some_iff.1 hj).1
        rw [hleader, hself, if_pos rfl]
        simp only [List.length_singleton] at this
        omega

/-- Calls that have just been made lead themselves. -/
theorem append {vs : List Work} (h : Matched log l) (hvs : k.work = l.work ++ vs) (hfresh : ∀ v ∈ vs, v.isFresh)
    (hlt : ∀ {i}, IsCall i l → leader i log < l.work.length)
    (hself : ∀ {i}, IsCall i k → l.work.length ≤ i → leader i log = i) : Matched log k := by
  have hcall {i : Nat} (hi : IsCall i k) : IsCall i l ∨ l.work.length ≤ i := by
    obtain ⟨token, retryOnClose, stage, hi⟩ := hi
    rw [hvs, List.getElem?_append] at hi
    split_ifs at hi with hil
    · exact .inl ⟨_, _, _, hi⟩
    · exact .inr (Nat.le_of_not_lt hil)
  refine ⟨?_, ?_⟩
  · intro i j hi hj heq
    rcases hcall hi with hi' | hi' <;> rcases hcall hj with hj' | hj'
    · exact h.single hi' hj' heq
    · have := hlt hi'
      have := hself hj hj'
      omega
    · have := hlt hj'
      have := hself hi hi'
      omega
    · rw [hself hi hi', hself hj hj'] at heq
      exact heq
  · intro j parent stage hj
    rw [hvs, List.getElem?_append] at hj
    split_ifs at hj
    · obtain ⟨i, ⟨token, retryOnClose, stage, hi⟩, heq⟩ := h.owned hj
      exact ⟨i, ⟨token, retryOnClose, stage, getElem?_of_append hvs hi⟩, heq⟩
    · cases hfresh _ (List.mem_of_getElem? hj)

end Matched

theorem Noted.matched (h : Noted world session log l) : Matched log l := by
  induction h with
  | start => exact ⟨fun ⟨_, _, _, hi⟩ => absurd hi nofun, nofun⟩
  | @step log l k m hprev hstep ih =>
    rcases exists_work_or m with ⟨n, c, rfl⟩ | hm
    · obtain ⟨w, w', k', hn, hwork, rfl⟩ := step_work hstep
      cases hspawn : w.isSpawning with
      | false => exact ih.step_quiet hn hwork hspawn
      | true =>
        have hself : leader n log = n := by
          cases w with
          | start token retryOnClose stage =>
            refine hprev.leader_eq_self hn ?_
            cases stage with
            | finished => cases hspawn
            | _ => rfl
          | _ => cases hspawn
        exact ih.step_spawning hself hprev.leader_lt hn hwork hspawn
    · obtain ⟨-, -, vs, hvs, hfresh⟩ := step_outside hstep hm
      have hnoted := hprev.step hstep
      rw [notes_outside hm, List.append_nil] at hnoted ⊢
      exact ih.append hvs hfresh hprev.leader_lt (hnoted.leader_of_isFresh hvs hfresh)

/-! Chains that are under way. -/

/-- Whether the chain of call `n` is under way. -/
def IsUnderWay (n : Nat) (log : List Note) (l : Listener) : Prop :=
  IsCall n l ∧ ∃ w, l.work[leader n log]? = some w ∧ w.isActive

/-- A task that leads no chain neither dials nor changes which connection is held; it leaves the phase alone unless
it begins to lead one. -/
theorem WorkStep.idle {w w' : Work} (h : WorkStep world l w w' k) (hw : w.isActive = false) :
    k.dials = l.dials ∧ k.held = l.held ∧ (k.phase = l.phase ∨ w'.isActive) := by
  cases h with
  | start hs =>
    cases hs with
    | late | check | refuse => exact ⟨rfl, rfl, .inl rfl⟩
    | claim => exact ⟨rfl, rfl, .inr rfl⟩
    | _ => cases hw
  | stop hs => exact ⟨hs.rests.dials, hs.quiet.held, .inl hs.quiet.phase⟩
  | chain hs =>
    cases hs with
    | farewell | closeStreams | finish => exact ⟨rfl, rfl, .inl rfl⟩
    | _ => cases hw
  | keepalive hs => exact ⟨hs.rests.dials, hs.quiet.held, .inl hs.quiet.phase⟩

/-- A chain begins by claiming the listener. -/
theorem WorkStep.claims {w w' : Work} (h : WorkStep world l w w' k) (hw : w.isActive = false) (hw' : w'.isActive) :
    (l.phase = .idle ∨ l.phase = .closed) ∧ k.phase = .connecting ∧
      ∃ token retryOnClose, w = .start token retryOnClose .claim := by
  cases h with
  | start hs =>
    cases hs with
    | claim hphase => exact ⟨hphase, rfl, _, _, rfl⟩
    | late | check | refuse => cases hw'
    | _ => cases hw
  | chain hs =>
    cases hs with
    | farewell | closeStreams | finish => cases hw'
    | _ => cases hw
  | stop | keepalive => cases hw'

/-- A chain that is not handed over ends by entering the closed phase. -/
theorem WorkStep.closes {w w' : Work} (h : WorkStep world l w w' k) (hw : w.isActive) (hspawn : w.isSpawning = false)
    (hw' : w'.isActive = false) : k.phase = .closed := by
  cases h with
  | start hs =>
    cases hs with
    | fail => rfl
    | spawn => cases hspawn
    | late | check | refuse => cases hw
    | _ => cases hw'
  | chain hs =>
    cases hs with
    | enter => rfl
    | farewell | closeStreams | finish => cases hw
    | handle hhandle => rcases handle_stage hhandle with rfl | rfl | ⟨es, ping, rfl⟩ <;> cases hw'
    | _ => cases hw'
  | stop | keepalive => cases hw

/-- While the phase is that of a chain, some task leads one. -/
def Staffed (l : Listener) : Prop := l.phase.isOpen → ∃ (i : Nat) (w : Work), l.work[i]? = some w ∧ w.isActive

theorem Staffed.append {vs : List Work} (h : Staffed l) (hphase : k.phase = l.phase) (hvs : k.work = l.work ++ vs) :
    Staffed k := by
  intro hopen
  rw [hphase] at hopen
  obtain ⟨i, w, hi, hw⟩ := h hopen
  exact ⟨i, w, getElem?_of_append hvs hi, hw⟩

theorem Staffed.step {n : Nat} {w w' : Work} (h : Staffed l) (hn : l.work[n]? = some w)
    (hstep : WorkStep world l w w' k) : Staffed (k.setTask n w') := by
  obtain ⟨vs, hvs, -⟩ := hstep.exists_spawned
  intro hopen
  cases hw' : w'.isActive with
  | true => exact ⟨n, w', getElem?_setTask_self w' (hstep.lt_length hn), hw'⟩
  | false =>
    cases hw : w.isActive with
    | false =>
      have hphase : k.phase = l.phase := (hstep.idle hw).2.2.resolve_right (by simp [hw'])
      obtain ⟨i, v, hi, hv⟩ := h (hphase ▸ hopen)
      refine ⟨i, v, getElem?_setTask_ne w' hvs ?_ hi, hv⟩
      rintro rfl
      rw [Option.some.inj (hn.symm.trans hi), hv] at hw
      cases hw
    | true =>
      rcases hstep.work_cases with ⟨hspawn, -⟩ | ⟨token, retryOnClose, link, rfl, rfl, rfl⟩
      · have hclosed : (k.setTask n w').phase = .closed := hstep.closes hw hspawn hw'
        rw [hclosed] at hopen
        cases hopen
      · refine ⟨l.work.length, .chain token (.receiving link .cancelled), ?_, rfl⟩
        rw [setTask, List.getElem?_set_ne (List.getElem?_eq_some_iff.1 hn).1.ne]
        exact List.getElem?_concat_length

theorem Noted.staffed (h : Noted world session log l) : Staffed l := by
  induction h with
  | start => exact fun hopen => nomatch hopen
  | @step log l k m hprev hstep ih =>
    rcases exists_work_or m with ⟨n, c, rfl⟩ | hm
    · obtain ⟨w, w', k', hn, hwork, rfl⟩ := step_work hstep
      exact ih.step hn hwork
    · obtain ⟨-, -, vs, hvs, -⟩ := step_outside hstep hm
      exact ih.append (step_still hstep hm).phase hvs

/-- A task that leads a chain leads that of some call. -/
theorem Noted.exists_isUnderWay {i : Nat} {w : Work} (h : Noted world session log l) (hi : l.work[i]? = some w)
    (hw : w.isActive) : ∃ n, leader n log = i ∧ IsUnderWay n log l := by
  cases w with
  | start token retryOnClose stage =>
    have hself : leader i log = i := by
      refine h.leader_eq_self hi ?_
      cases stage with
      | finished => cases hw
      | _ => rfl
    exact ⟨i, hself, ⟨_, _, _, hi⟩, _, hself.symm ▸ hi, hw⟩
  | chain parent stage =>
    obtain ⟨n, hn, rfl⟩ := h.matched.owned hi
    exact ⟨n, rfl, hn, _, hi, hw⟩
  | stop | keepalive => cases hw

/-- At most one chain is under way. -/
theorem IsUnderWay.unique {m n : Nat} (h : Noted world session log l) (hm : IsUnderWay m log l)
    (hn : IsUnderWay n log l) : m = n := by
  obtain ⟨K, hled⟩ := h.based.led
  obtain ⟨hmcall, v, hv, hvactive⟩ := hm
  obtain ⟨hncall, w, hw, hwactive⟩ := hn
  exact h.matched.single hmcall hncall (hled.single hv hw hvactive hwactive)

/-- The phase tells whether a chain is under way. -/
theorem Noted.isOpen_iff (h : Noted world session log l) : l.phase.isOpen ↔ ∃ n, IsUnderWay n log l := by
  constructor
  · intro hopen
    obtain ⟨i, w, hi, hw⟩ := h.staffed hopen
    obtain ⟨n, -, hn⟩ := h.exists_isUnderWay hi hw
    exact ⟨n, hn⟩
  · rintro ⟨n, -, w, hw, hactive⟩
    obtain ⟨K, hled⟩ := h.based.led
    exact (hled.place hw hactive).1

/-! Why a call may fail. -/

def Starting.failure? : Starting → Option ListenerError
  | .dialing d => d.failure?
  | .failing e => some e
  | _ => none

/-- No dial fails because a chain is under way. -/
def Work.IsFair : Work → Prop
  | .start _ _ stage => stage.failure? ≠ some .alreadyConnected
  | _ => True

theorem DialingStep.failure?_ne {token : Token} {d d' : Dialing} (h : DialingStep world token l d d' k) :
    d'.failure? ≠ some .alreadyConnected := by
  cases h <;> exact nofun

theorem WorkStep.isFair {w w' : Work} (h : WorkStep world l w w' k) (hw : w.IsFair) : w'.IsFair := by
  cases h with
  | start hs =>
    cases hs with
    | dial hd => exact hd.failure?_ne
    | dialFailed => exact hw
    | _ => exact nofun
  | stop | chain | keepalive => trivial

theorem Work.isFair_of_isFresh {w : Work} (h : w.isFresh) : w.IsFair := by
  rcases Work.eq_of_isFresh h with ⟨token, retryOnClose, rfl⟩ | rfl
  · exact nofun
  · trivial

theorem Noted.isFair (h : Noted world session log l) : ∀ w ∈ l.work, w.IsFair := by
  induction h with
  | start => exact fun _ hw => nomatch hw
  | @step log l k m hprev hstep ih =>
    rcases exists_work_or m with ⟨n, c, rfl⟩ | hm
    · obtain ⟨w, w', k', hn, hwork, rfl⟩ := step_work hstep
      obtain ⟨vs, hvs, hspawned⟩ : ∃ vs, k'.work = l.work ++ vs ∧ ∀ v ∈ vs, v.IsFair :=
        hwork.exists_spawned_of (fun _ _ => trivial) fun _ _ _ _ => trivial
      exact forall_mem_setTask (forall_mem_append hvs ih hspawned) (hwork.isFair (ih w (List.mem_of_getElem? hn)))
    · obtain ⟨-, -, vs, hvs, hfresh⟩ := step_outside hstep hm
      exact forall_mem_append hvs ih fun v hv => Work.isFair_of_isFresh (hfresh v hv)

/-! What a move may do to chains. -/

/-- What becomes of a call that has not claimed the listener, in a step of its own: it claims the listener, or
nothing but the call itself goes on. -/
inductive Entrance (n : Nat) (token : Token) (retryOnClose : Bool) (l : Listener) : Starting → Listener → Prop
  | late : l.isCancelled token →
      Entrance n token retryOnClose l .check (l.setTask n (.start token retryOnClose (.finished (.error .cancelled))))
  | live : l.isCancelled token = false →
      Entrance n token retryOnClose l .check (l.setTask n (.start token retryOnClose .claim))
  | refused : l.phase.isOpen → Entrance n token retryOnClose l .claim
      (l.setTask n (.start token retryOnClose (.finished (.error .alreadyConnected))))
  | claimed {k : Listener} : l.phase.isOpen = false → k.phase = .connecting →
      k.work[n]? = some (.start token retryOnClose .reopenTracker) → Entrance n token retryOnClose l .claim k

/-- What holds of a move. A chain begins when its call claims the listener; it ends when the task that leads it
enters the closed phase. A call comes in, or is turned away, as it is said above, and only for the phase it is told
that a chain is under way. Only the task that leads the chain that is under way dials, changes which connection is
held, and handles a payload, which comes from the connection that is held. -/
structure Gated (log : List Note) (l : Listener) (m : Move) (k : Listener) : Prop where
  begins : ∀ {n : Nat}, IsUnderWay n (log ++ notes m l k) k → IsUnderWay n log l ∨
    ∃ c token retryOnClose, m = .work n c ∧ l.work[n]? = some (.start token retryOnClose .claim) ∧
      (l.phase = .idle ∨ l.phase = .closed) ∧ k.phase = .connecting
  ends : ∀ {n : Nat}, IsUnderWay n log l → IsUnderWay n (log ++ notes m l k) k ∨
    ∃ c, m = .work (leader n log) c ∧ k.phase = .closed
  enters : ∀ {n : Nat} {c : Choice} {token : Token} {retryOnClose : Bool} {stage : Starting}, m = .work n c →
    l.work[n]? = some (.start token retryOnClose stage) → stage = .check ∨ stage = .claim →
      Entrance n token retryOnClose l stage k
  refused : ∀ {n : Nat} {token : Token} {retryOnClose : Bool},
    k.work[n]? = some (.start token retryOnClose (.finished (.error .alreadyConnected))) →
      l.work[n]? = some (.start token retryOnClose (.finished (.error .alreadyConnected))) ∨
        l.work[n]? = some (.start token retryOnClose .claim) ∧ ∃ i, IsUnderWay i log l
  dials : k.dials ≠ l.dials → ∃ n c, m = .work (leader n log) c ∧ IsUnderWay n log l
  holds : k.held ≠ l.held → ∃ n c, m = .work (leader n log) c ∧ IsUnderWay n log l
  handles : ∀ {i : Nat} {c : Choice} {parent : Token} {link : Nat} {b : Bytes}, m = .work i c →
    l.work[i]? = some (.chain parent (.handling link b)) →
      (∃ n, leader n log = i ∧ IsUnderWay n log l) ∧ l.held.map Prod.fst = some link

theorem leader_notes_ne {n i : Nat} {c : Choice} (h : n ≠ i) : leader i (notes (.work n c) l k) = i := by
  refine (story_apart ?_).2
  intro x hx
  rw [task_of_mem_notes hx]
  exact h

section

variable {n i : Nat} {c : Choice} {w w' : Work}

theorem Work.isActive_of_isSpawning (h : w.isSpawning) : w.isActive := by
  cases w with
  | start token retryOnClose stage =>
    cases stage with
    | spawning => rfl
    | _ => cases h
  | _ => cases h

/-- What happens to a chain when a task takes a step that does not lead it. -/
theorem isUnderWay_of_ne (hn : l.work[n]? = some w) (hstep : WorkStep world l w w' k) (hne : n ≠ leader i log)
    (hlead : leader i log < l.work.length) :
    IsUnderWay i (log ++ notes (.work n c) l (k.setTask n w')) (k.setTask n w') ↔ IsUnderWay i log l := by
  obtain ⟨vs, hvs, -⟩ := hstep.exists_spawned
  have hleader : leader i (log ++ notes (.work n c) l (k.setTask n w')) = leader i log := by
    rw [leader_append, leader_notes_ne hne]
  have hsame : (k.setTask n w').work[leader i log]? = l.work[leader i log]? := by
    rw [List.getElem?_eq_getElem hlead]
    exact getElem?_setTask_ne w' hvs hne (List.getElem?_eq_getElem hlead)
  rw [IsUnderWay, IsUnderWay, hleader, hsame]
  exact and_congr_left fun _ => ⟨hstep.isCall hn, fun hi => hi.step hn hstep⟩

/-- A chain that is under way after a step of a task was so before, or has just claimed the listener. -/
theorem IsUnderWay.of_step (h : Noted world session log l) (hn : l.work[n]? = some w)
    (hstep : WorkStep world l w w' k)
    (hi : IsUnderWay i (log ++ notes (.work n c) l (k.setTask n w')) (k.setTask n w')) : IsUnderWay i log l ∨
      ∃ token retryOnClose, i = n ∧ w = .start token retryOnClose .claim ∧ (l.phase = .idle ∨ l.phase = .closed) ∧
        k.phase = .connecting := by
  have hcall := hstep.isCall hn hi.1
  by_cases hne : n = leader i log
  · cases hw : w.isActive with
    | true => exact .inl ⟨hcall, w, hne ▸ hn, hw⟩
    | false =>
      have hspawn : w.isSpawning = false := by
        by_contra hspawn
        rw [Work.isActive_of_isSpawning (by simpa using hspawn)] at hw
        cases hw
      obtain ⟨-, v, hv, hactive⟩ := hi
      rw [leader_append, leader_notes hn hspawn, ← hne, getElem?_setTask_self w' (hstep.lt_length hn)] at hv
      obtain rfl := Option.some.inj hv
      obtain ⟨hclosed, hconnecting, token, retryOnClose, rfl⟩ := hstep.claims hw hactive
      have hself : leader n log = n := h.leader_eq_self hn rfl
      exact .inr ⟨token, retryOnClose, h.matched.single hcall ⟨_, _, _, hn⟩ (hne.symm.trans hself.symm), rfl, hclosed,
        hconnecting⟩
  · exact .inl ((isUnderWay_of_ne hn hstep hne (h.leader_lt hcall)).1 hi)

/-- A chain that was under way before a step of a task is so after it, or has just entered the closed phase. -/
theorem IsUnderWay.step (h : Noted world session log l) (hn : l.work[n]? = some w) (hstep : WorkStep world l w w' k)
    (hi : IsUnderWay i log l) : IsUnderWay i (log ++ notes (.work n c) l (k.setTask n w')) (k.setTask n w') ∨
      n = leader i log ∧ k.phase = .closed := by
  by_cases hne : n = leader i log
  · obtain ⟨hcall, v, hv, hactive⟩ := hi
    rw [← hne, hn] at hv
    obtain rfl := Option.some.inj hv
    cases hspawn : w.isSpawning with
    | false =>
      cases hw' : w'.isActive with
      | false => exact .inr ⟨hne, hstep.closes hactive hspawn hw'⟩
      | true =>
        refine .inl ⟨hcall.step hn hstep, w', ?_, hw'⟩
        rw [leader_append, leader_notes hn hspawn, ← hne, getElem?_setTask_self w' (hstep.lt_length hn)]
    | true =>
      -- The task to which the chain is handed over comes last.
      rcases hstep.work_cases with ⟨hnot, -⟩ | ⟨token, retryOnClose, link, rfl, rfl, rfl⟩
      · rw [hspawn] at hnot
        cases hnot
      · refine .inl ⟨hcall.step hn hstep, .chain token (.receiving link .cancelled), ?_, rfl⟩
        rw [leader_append, leader_notes_spawning hn hspawn, if_pos hne, setTask,
          List.getElem?_set_ne (List.getElem?_eq_some_iff.1 hn).1.ne]
        exact List.getElem?_concat_length
  · exact .inl ((isUnderWay_of_ne hn hstep hne (h.leader_lt hi.1)).2 hi)

theorem Work.isActive_of_isFresh (h : w.isFresh) : w.isActive = false := by
  rcases Work.eq_of_isFresh h with ⟨token, retryOnClose, rfl⟩ | rfl <;> rfl

/-- A move that is no step of a task neither begins nor ends a chain. -/
theorem isUnderWay_outside (h : Noted world session log l) {m : Move} (hstep : l.step world m = some k)
    (hm : ∀ n c, m ≠ .work n c) : IsUnderWay i log k ↔ IsUnderWay i log l := by
  obtain ⟨-, -, vs, hvs, hfresh⟩ := step_outside hstep hm
  constructor
  · rintro ⟨⟨token, retryOnClose, stage, hi⟩, v, hv, hactive⟩
    rw [hvs, List.getElem?_append] at hv hi
    split_ifs at hv with hlt
    · split_ifs at hi with hcall
      · exact ⟨⟨_, _, _, hi⟩, v, hv, hactive⟩
      · have hnoted := h.step hstep
        rw [notes_outside hm, List.append_nil] at hnoted
        have hcalled : IsCall i k := ⟨_, _, _, by rw [hvs, List.getElem?_append, if_neg hcall, hi]⟩
        have hself : leader i log = i := hnoted.leader_of_isFresh hvs hfresh hcalled (Nat.le_of_not_lt hcall)
        omega
    · rw [Work.isActive_of_isFresh (hfresh v (List.mem_of_getElem? hv))] at hactive
      cases hactive
  · rintro ⟨⟨token, retryOnClose, stage, hi⟩, v, hv, hactive⟩
    exact ⟨⟨_, _, _, getElem?_of_append hvs hi⟩, v, getElem?_of_append hvs hv, hactive⟩

theorem entrance {token : Token} {retryOnClose : Bool} {stage : Starting} (hlt : n < l.work.length)
    (hstep : WorkStep world l (.start token retryOnClose stage) w' k) (hstage : stage = .check ∨ stage = .claim) :
    Entrance n token retryOnClose l stage (k.setTask n w') := by
  cases hstep with
  | start hs =>
    cases hs with
    | late hc => exact .late hc
    | check hc => exact .live hc
    | refuse hphase => exact .refused (Phase.isOpen_iff.2 hphase)
    | claim hphase =>
      exact .claimed (Phase.isOpen_eq_false_iff.2 hphase) rfl (getElem?_setTask_self _ hlt)
    | _ => rcases hstage with h | h <;> cases h

/-- Only a call that looks at the phase of a chain that is under way is told of it. -/
theorem WorkStep.refused {token : Token} {retryOnClose : Bool} (hfair : w.IsFair) (hn : l.work[n]? = some w)
    (hstep : WorkStep world l w w' k)
    (hi : (k.setTask n w').work[i]? = some (.start token retryOnClose (.finished (.error .alreadyConnected)))) :
    l.work[i]? = some (.start token retryOnClose (.finished (.error .alreadyConnected))) ∨
      l.work[i]? = some (.start token retryOnClose .claim) ∧ l.phase.isOpen := by
  obtain ⟨vs, hvs, hfresh⟩ := hstep.exists_spawned
  rcases getElem?_setTask hvs hi with ⟨rfl, rfl⟩ | ⟨-, hi⟩ | ⟨-, hi⟩
  · cases hstep with
    | start hs =>
      cases hs with
      | refuse hphase => exact .inr ⟨hn, Phase.isOpen_iff.2 hphase⟩
      | fail => exact absurd rfl hfair
  · exact .inl hi
  · exact absurd rfl ((hfresh _ (List.mem_of_getElem? hi)).2 _ _ _)

/-- Of the task that takes a step: whoever leads a chain leads one that is under way. -/
theorem Noted.leads (h : Noted world session log l) (hn : l.work[n]? = some w) (c : Choice) (hw : w.isActive) :
    ∃ i c', Move.work n c = .work (leader i log) c' ∧ IsUnderWay i log l := by
  obtain ⟨i, rfl, hi⟩ := h.exists_isUnderWay hn hw
  exact ⟨i, c, rfl, hi⟩

end

theorem Noted.gated (h : Noted world session log l) {m : Move} (hstep : l.step world m = some k) :
    Gated log l m k := by
  rcases exists_work_or m with ⟨n, c, rfl⟩ | hm
  · obtain ⟨w, w', k', hn, hwork, rfl⟩ := step_work hstep
    have hidle (hw : w.isActive = false) : k'.dials = l.dials ∧ k'.held = l.held :=
      ⟨(hwork.idle hw).1, (hwork.idle hw).2.1⟩
    constructor
    case begins =>
      intro i hi
      rcases hi.of_step h hn hwork with hi | ⟨token, retryOnClose, rfl, rfl, hclosed, hconnecting⟩
      · exact .inl hi
      · exact .inr ⟨c, token, retryOnClose, rfl, hn, hclosed, hconnecting⟩
    case ends =>
      intro i hi
      rcases hi.step h hn hwork with hi | ⟨rfl, hclosed⟩
      · exact .inl hi
      · exact .inr ⟨c, rfl, hclosed⟩
    case enters =>
      rintro i c' token retryOnClose stage heq hi hstage
      cases heq
      obtain rfl := Option.some.inj (hn.symm.trans hi)
      exact entrance (List.getElem?_eq_some_iff.1 hn).1 hwork hstage
    case refused =>
      intro i token retryOnClose hi
      rcases hwork.refused (h.isFair w (List.mem_of_getElem? hn)) hn hi with hi | ⟨hi, hopen⟩
      · exact .inl hi
      · exact .inr ⟨hi, h.isOpen_iff.1 hopen⟩
    case dials =>
      intro hdials
      refine h.leads hn c ?_
      by_contra hw
      exact hdials (hidle (by simpa using hw)).1
    case holds =>
      intro hheld
      refine h.leads hn c ?_
      by_contra hw
      exact hheld (hidle (by simpa using hw)).2
    case handles =>
      intro i c' parent link b heq hi
      obtain ⟨K, hled⟩ := h.based.led
      refine ⟨h.exists_isUnderWay hi rfl, ?_⟩
      rw [(hled.place hi rfl).2.2]
      rfl
  · have hstill := step_still hstep hm
    have hnotes : log ++ notes m l k = log := by rw [notes_outside hm, List.append_nil]
    constructor
    case begins =>
      intro i hi
      rw [hnotes] at hi
      exact .inl ((isUnderWay_outside h hstep hm).1 hi)
    case ends =>
      intro i hi
      rw [hnotes]
      exact .inl ((isUnderWay_outside h hstep hm).2 hi)
    case enters => exact fun heq => absurd heq (hm _ _)
    case refused =>
      intro i token retryOnClose hi
      obtain ⟨-, -, vs, hvs, hfresh⟩ := step_outside hstep hm
      rw [hvs, List.getElem?_append] at hi
      split_ifs at hi
      · exact .inl hi
      · cases hfresh _ (List.mem_of_getElem? hi)
    case dials => exact fun hdials => absurd hstill.dials hdials
    case holds => exact fun hheld => absurd hstill.held hheld
    case handles => exact fun heq => absurd heq (hm _ _)

/-- Whatever happens to a listener, and however many calls there are, at most one chain is under way, and one is as
long as the phase is neither idle nor closed; and each move is gated. -/
theorem chains_exclude_each_other (h : Noted world session log l) :
    (∀ {i j}, IsUnderWay i log l → IsUnderWay j log l → i = j) ∧ (l.phase.isOpen ↔ ∃ i, IsUnderWay i log l) ∧
      ∀ {m k}, l.step world m = some k → Gated log l m k :=
  ⟨fun hi hj => hi.unique h hj, h.isOpen_iff, h.gated⟩

/-- a dial, and another call that is about to look at the phase -/
def latecomerMoves : List Move :=
  .start ⟨[0]⟩ true :: (List.replicate 11 (Move.work 0 .proceed) ++ [.start ⟨[1]⟩ false, .work 2 .proceed])

/-- Whether the first chain is under way and a second call is about to look at the phase. -/
def hasLatecomer (s : List Note × Listener) : Bool :=
  hasSucceeded s.2 && (s.2.work[leader 0 s.1]?).any Work.isActive &&
    match s.2.work[2]? with
    | some (Work.start token false .claim) => token == ⟨[1]⟩
    | _ => false

/-- A second call comes too late, and nothing but the call itself goes on. -/
theorem chains_exclude_each_other_refused :
    ∃ log l k, Noted openWorld scantSession log l ∧ IsUnderWay 0 log l ∧ l.step openWorld (.work 2 .proceed) = some k ∧
      k = l.setTask 2 (.start ⟨[1]⟩ false (.finished (.error .alreadyConnected))) := by
  have hran : (play openWorld latecomerMoves ([], create scantSession)).any
      (fun s => hasLatecomer s && (s.2.step openWorld (.work 2 .proceed)).isSome) = true := by decide +kernel
  obtain ⟨⟨log, l⟩, hplay, hend⟩ := (Option.any_eq_true _ _).1 hran
  simp only [hasLatecomer, Bool.and_eq_true] at hend
  obtain ⟨⟨⟨hcall, hactive⟩, hlate⟩, hstep⟩ := hend
  obtain ⟨k, hk⟩ := Option.isSome_iff_exists.1 hstep
  obtain ⟨w, hw, hactive⟩ := (Option.any_eq_true _ _).1 hactive
  have hnoted := noted_play .start hplay
  have hway : IsUnderWay 0 log l := ⟨⟨_, _, _, of_hasSucceeded hcall⟩, w, hw, hactive⟩
  have hlate : l.work[2]? = some (.start ⟨[1]⟩ false .claim) := by
    split at hlate
    · next token htask =>
      rw [beq_iff_eq] at hlate
      rw [htask, hlate]
    · cases hlate
  obtain ⟨-, hphase, hgated⟩ := chains_exclude_each_other hnoted
  refine ⟨log, l, k, hnoted, hway, hk, ?_⟩
  cases (hgated hk).enters rfl hlate (.inr rfl) with
  | refused => rfl
  | claimed hclosed =>
    rw [hphase.2 ⟨0, hway⟩] at hclosed
    cases hclosed

end ChatWire.Listener
