import ChatWire.Proofs.Listener.Emission

/-! At most one task leads a chain, in all states that can be reached, and it stands where it seems to. -/

namespace ChatWire.Listener

variable {world : Surroundings} {K : Nat → Option CipherKey} {l k : Listener}

/-- At most one task leads a chain. -/
structure Led (K : Nat → Option CipherKey) (l : Listener) : Prop where
  single : ∀ {i j : Nat} {v w : Work}, l.work[i]? = some v → l.work[j]? = some w → v.isActive → w.isActive → i = j
  place : ∀ {i : Nat} {w : Work}, l.work[i]? = some w → w.isActive → l.phase.isOpen ∧ w.spot.Holds K l
  unused : ∀ link, l.links.length ≤ link → K link = none

namespace Led

theorem standing (h : Led K l) {i : Nat} {w : Work} (hi : l.work[i]? = some w) (hw : w.isActive) :
    Standing K w.spot l := ⟨(h.place hi hw).1, (h.place hi hw).2, h.unused⟩

/-- Nothing changes as long as all tasks that lead a chain have been there before. -/
theorem quiet_work {es : List Event} {ws : List Work} (h : Led K l) (hq : Quiet es l k)
    (hws : ∀ (i : Nat) (w : Work), ws[i]? = some w → w.isActive → l.work[i]? = some w) : Led K { k with work := ws } where
  single hi hj hv hw := h.single (hws _ _ hi hv) (hws _ _ hj hw) hv hw
  place hi hw :=
    have hs := (h.standing (hws _ _ hi hw) hw).quiet hq
    ⟨hs.isOpen, hs.place⟩
  unused := hq.links ▸ h.unused

theorem quiet {es : List Event} (h : Led K l) (hq : Quiet es l k) : Led K k :=
  h.quiet_work hq fun _ _ hi _ => hq.work ▸ hi

/-- Only the task at `n` may lead a chain. -/
theorem of_unique (n : Nat) (hplace : ∀ i w, k.work[i]? = some w → w.isActive → i = n ∧ Standing K w.spot k)
    (hunused : ∀ link, k.links.length ≤ link → K link = none) : Led K k where
  single hi hj hv hw := (hplace _ _ hi hv).1.trans (hplace _ _ hj hw).1.symm
  place hi hw := ⟨(hplace _ _ hi hw).2.isOpen, (hplace _ _ hi hw).2.place⟩
  unused := hunused

end Led

/-- the listener with task `n` gone on to `w` -/
def setTask (n : Nat) (w : Work) (l : Listener) : Listener := { l with work := l.work.set n w }

/-- The tasks after a step of one of them. -/
theorem getElem?_setTask {vs : List Work} {n i : Nat} {w v : Work} (hwork : k.work = l.work ++ vs)
    (h : (k.setTask n w).work[i]? = some v) : i = n ∧ v = w ∨ i ≠ n ∧ l.work[i]? = some v ∨
      l.work.length ≤ i ∧ vs[i - l.work.length]? = some v := by
  rw [setTask, hwork, List.getElem?_set] at h
  split_ifs at h with hi hlt
  · exact .inl ⟨hi.symm, (Option.some.inj h).symm⟩
  · rw [List.getElem?_append] at h
    split_ifs at h with hlt
    · exact .inr (.inl ⟨fun heq => hi heq.symm, h⟩)
    · exact .inr (.inr ⟨Nat.le_of_not_lt hlt, h⟩)

/-- What a step of a task that leads no chain comes to: it does nothing to the connection, or the task begins to
lead a chain where none was open. -/
def Idles (active : Bool) (s : Spot) (l k : Listener) : Prop :=
  (active = false ∧ ∃ es, Quiet es l k) ∨
    (l.phase.isOpen = false ∧ k.phase.isOpen ∧ s = .away ∧ k.links = l.links ∧ k.work = l.work)

theorem StartStep.idles {token : Token} {retryOnClose : Bool} {stage stage' : Starting}
    (h : StartStep world token retryOnClose l stage stage' k) (hidle : stage.isActive = false) :
    Idles stage'.isActive (stage'.spot token) l k := by
  cases h with
  | late | check | refuse => exact .inl ⟨rfl, [], .refl l⟩
  | claim hphase => exact .inr ⟨Phase.isOpen_eq_false_iff.2 hphase, rfl, rfl, rfl, rfl⟩
  | reopenTracker | reopenStreams | dial | dialed | dialFailed | fail | spawn => cases hidle

theorem ChainStep.idles {parent : Token} {chain chain' : Chain} (h : ChainStep world parent l chain chain' k)
    (hidle : chain.isActive = false) : Idles chain'.isActive (chain'.spot parent) l k := by
  cases h with
  | farewell => exact .inl ⟨rfl, _, .publish ..⟩
  | closeStreams => exact .inl ⟨rfl, _, .closeStreams ..⟩
  | finish => exact .inl ⟨rfl, _, (Quiet.cancel parent l).trans (.track ..)⟩
  | _ => cases hidle

theorem WorkStep.idles {w w' : Work} (h : WorkStep world l w w' k) (hidle : w.isActive = false) :
    Idles w'.isActive w'.spot l k := by
  cases h with
  | start hs => exact hs.idles hidle
  | stop hs => exact .inl ⟨rfl, [], hs.quiet⟩
  | chain hs => exact hs.idles hidle
  | keepalive hs => exact .inl ⟨rfl, [], hs.quiet⟩

theorem WorkStep.leads {w w' : Work} (h : WorkStep world l w w' k) (hw : w.isActive) (hstand : Standing K w.spot l) :
    Leads (w.gives K) w'.isActive w'.spot k := by
  cases h with
  | start hs => exact hs.leads hw hstand
  | chain hs => exact hs.leads hw hstand
  | stop | keepalive => cases hw

/-- A call that starts a chain hands over to it. -/
theorem WorkStep.hands_over {w w' : Work} (h : WorkStep world l w w' k) (hw : w.isSpawning)
    (hstand : Standing K w.spot l) : w'.isActive = false ∧ ∃ v, k.work = l.work ++ [v] ∧ Standing K v.spot k := by
  cases h with
  | start hs =>
    cases hs with
    | spawn => exact ⟨rfl, _, rfl, hstand.isOpen, hstand.place, hstand.unused⟩
    | _ => cases hw
  | stop | chain | keepalive => cases hw

theorem Work.gives_of_isHandling_eq_false {w : Work} (h : w.isHandling = false) : w.gives K = K := by
  cases w with
  | chain parent stage =>
    cases stage with
    | handling => cases h
    | _ => rfl
  | _ => rfl

theorem Work.isHandling_of_idle {w : Work} (h : w.isActive = false) : w.isHandling = false := by
  cases w with
  | chain parent stage =>
    cases stage with
    | handling => cases h
    | _ => rfl
  | _ => rfl

theorem Work.isHandling_of_isSpawning {w : Work} (h : w.isSpawning) : w.isHandling = false := by
  cases w with
  | chain => cases h
  | _ => rfl

/-- A step of a task that leads no chain leaves things led as they were. -/
theorem Led.step_idle {n : Nat} {w w' : Work} (h : Led K l) (hstep : WorkStep world l w w' k)
    (hw : w.isActive = false) : Led K (k.setTask n w') := by
  rcases hstep.idles hw with ⟨hidle, es, hq⟩ | ⟨hclosed, hopen, haway, hlinks, hwork⟩
  · refine h.quiet_work hq ?_
    intro i v hi hv
    rcases getElem?_setTask (hq.work.trans (List.append_nil _).symm) hi with ⟨rfl, rfl⟩ | ⟨-, hi⟩ | ⟨-, hnil⟩
    · rw [hidle] at hv
      cases hv
    · exact hi
    · cases hnil
  · refine Led.of_unique n ?_ (hlinks ▸ h.unused)
    intro i v hi hv
    rcases getElem?_setTask (hwork.trans (List.append_nil _).symm) hi with ⟨rfl, rfl⟩ | ⟨-, hi⟩ | ⟨-, hnil⟩
    · exact ⟨rfl, hopen, haway ▸ trivial, hlinks ▸ h.unused⟩
    · rw [(h.place hi hv).1] at hclosed
      cases hclosed
    · cases hnil

/-- All tasks but the one that leads a chain are idle. -/
theorem Led.idle_of_ne (h : Led K l) {n i : Nat} {w v : Work} (hn : l.work[n]? = some w) (hw : w.isActive)
    (hne : i ≠ n) (hi : l.work[i]? = some v) : v.isActive = false := by
  by_contra hv
  exact hne (h.single hi hn (by simpa using hv) hw)

theorem Led.step_active {n : Nat} {w w' : Work} (h : Led K l) (hsound : w.IsSound) (hn : l.work[n]? = some w)
    (hstep : WorkStep world l w w' k) (hw : w.isActive) (hspawn : w.isSpawning = false) :
    Led (w.gives K) (k.setTask n w') := by
  obtain ⟨es, spawned, hemits, hspawned, -, -⟩ := hstep.conserves hsound
  have hleads := hstep.leads hw (h.standing hn hw)
  refine Led.of_unique n ?_ hleads.unused
  intro i v hi hv
  rcases getElem?_setTask hemits.work hi with ⟨rfl, rfl⟩ | ⟨hne, hi⟩ | ⟨-, hmem⟩
  · exact ⟨rfl, hleads.isOpen hv, hleads.place hv, hleads.unused⟩
  · rw [h.idle_of_ne hn hw hne hi] at hv
    cases hv
  · rw [hspawn] at hspawned
    exact absurd ((hspawned v (List.mem_of_getElem? hmem)).2.2 hv) Bool.noConfusion

theorem Led.step_spawning {n : Nat} {w w' : Work} (h : Led K l) (hn : l.work[n]? = some w)
    (hstep : WorkStep world l w w' k) (hw : w.isActive) (hspawn : w.isSpawning) : Led K (k.setTask n w') := by
  have hleads := hstep.leads hw (h.standing hn hw)
  obtain ⟨hidle, u, hu, hstand⟩ := hstep.hands_over hspawn (h.standing hn hw)
  rw [Work.gives_of_isHandling_eq_false (Work.isHandling_of_isSpawning hspawn)] at hleads
  refine Led.of_unique l.work.length ?_ hleads.unused
  intro i v hi hv
  rcases getElem?_setTask hu hi with ⟨rfl, rfl⟩ | ⟨hne, hi⟩ | ⟨hle, hmem⟩
  · rw [hidle] at hv
    cases hv
  · rw [h.idle_of_ne hn hw hne hi] at hv
    cases hv
  · rw [List.getElem?_singleton] at hmem
    split_ifs at hmem with hi
    cases hmem
    exact ⟨by omega, hstand.isOpen, hstand.place, hstand.unused⟩

theorem Led.step {n : Nat} {w w' : Work} (h : Led K l) (hsound : w.IsSound) (hn : l.work[n]? = some w)
    (hstep : WorkStep world l w w' k) : Led (w.gives K) (k.setTask n w') := by
  cases hw : w.isActive with
  | false =>
    rw [Work.gives_of_isHandling_eq_false (Work.isHandling_of_idle hw)]
    exact h.step_idle hstep hw
  | true =>
    cases hspawn : w.isSpawning with
    | false => exact h.step_active hsound hn hstep hw hspawn
    | true =>
      rw [Work.gives_of_isHandling_eq_false (Work.isHandling_of_isSpawning hspawn)]
      exact h.step_spawning hn hstep hw hspawn

end ChatWire.Listener
