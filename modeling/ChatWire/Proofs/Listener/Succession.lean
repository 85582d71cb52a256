import ChatWire.Proofs.Listener.Pinging

/-! Each key that is accepted leaves one task that pings. The listener goes by the tokens that its callers have brought,
and cancels its own ones only when it has done with them; so the token that was made last is not cancelled as long as
its chain goes on. -/

namespace ChatWire.Listener

variable {world : Surroundings} {session : Session} {log : List Mark} {l k : Listener} {w w' : Work}

/-! What callers bring. -/

/-- Whether callers bring only tokens of their own. -/
def Honest (log : List Mark) : Prop := ∀ t ∈ made log, Mark.brought t ∉ log

instance (log : List Mark) : Decidable (Honest log) :=
  inferInstanceAs (Decidable (∀ t ∈ made log, Mark.brought t ∉ log))

/-- A call that stops the listener looks up the token of the last chain. -/
theorem WorkStep.mem_carried (h : WorkStep world l w w' k) {t : Token} (ht : t ∈ w'.carried) :
    t ∈ w.carried ∨ l.parent = some t := by
  cases h with
  | start | chain => exact .inl ht
  | keepalive => cases ht
  | stop hs =>
    cases hs with
    | look => exact .inr (Option.mem_toList.1 ht)
    | @cancel _ link => cases link <;> cases ht
    | @skip link => cases link <;> cases ht
    | _ => cases ht

theorem Work.mem_carried_of_token? {t : Token} (h : w.token? = some t) : t ∈ w.carried := by
  cases w with
  | start | chain =>
    cases h
    exact List.mem_singleton_self _
  | stop | keepalive => cases h

/-- A call that is made anew has no token but the one that its caller brings. -/
theorem exists_called {m : Move} (h : l.step world m = some k) (hm : ∀ n c, m ≠ .work n c) :
    ∃ vs, k.work = l.work ++ vs ∧ ∀ v ∈ vs, ∀ t ∈ v.carried, Mark.brought t ∈ marks m l k := by
  have hnone (hwork : k.work = l.work) : ∃ vs, k.work = l.work ++ vs ∧ ∀ v ∈ vs, ∀ t ∈ v.carried,
      Mark.brought t ∈ marks m l k := ⟨[], hwork.trans (List.append_nil _).symm, by simp⟩
  cases m with
  | work n c => exact absurd rfl (hm n c)
  | start token retryOnClose =>
    cases Option.some.inj h
    exact ⟨_, rfl, by simp [Work.carried, marks]⟩
  | stop =>
    cases Option.some.inj h
    exact ⟨_, rfl, by simp [Work.carried]⟩
  | reader | writer =>
    simp only [Listener.step, Option.bind_eq_bind, Option.bind_eq_some_iff, Option.some.injEq] at h
    obtain ⟨t, -, t', -, rfl⟩ := h
    exact hnone rfl
  | send header data stamp =>
    cases Option.some.inj h
    exact hnone (Quiet.send ..).work
  | cancel | peerSend | peerVanish | fault | wait =>
    cases Option.some.inj h
    exact hnone rfl

/-- All tokens that tasks go by have been brought. And none is cancelled but by those who have brought it, or once it is
no more that of the connection that is held. -/
structure Brought (log : List Mark) (l : Listener) : Prop where
  carried : ∀ w ∈ l.work, ∀ t ∈ w.carried, Mark.brought t ∈ log
  parent : ∀ t, l.parent = some t → Mark.brought t ∈ log
  origin : ∀ t ∈ l.tokens.cancelled, Mark.brought t ∈ log ∨ t ∈ made log ∧ l.heldToken? ≠ some t

namespace Brought

theorem create (session : Session) : Brought [] (create session) where
  carried _ h := absurd h List.not_mem_nil
  parent _ h := nomatch h
  origin _ h := absurd h List.not_mem_nil

/-- The tokens that were cancelled, some time later. -/
theorem origin_append {ds : List Mark} (h : Brought log l) (hheld : k.heldToken? = l.heldToken?) {t : Token}
    (ht : t ∈ l.tokens.cancelled) :
    Mark.brought t ∈ log ++ ds ∨ t ∈ made (log ++ ds) ∧ k.heldToken? ≠ some t := by
  rw [made_append, hheld]
  exact (h.origin t ht).imp (List.mem_append_left _) (.imp_left (List.mem_append_left _))

theorem origin_step (h : Brought log l) (hwatched : Watched log l) (hw : w ∈ l.work) (hstep : WorkStep world l w w' k)
    (ds : List Mark) {t : Token} (ht : t ∈ k.tokens.cancelled) :
    Mark.brought t ∈ log ++ ds ∨ t ∈ made (log ++ ds) ∧ k.heldToken? ≠ some t := by
  cases hstep.turnover with
  | same hgrip htokens => exact h.origin_append (heldToken?_of_grip hgrip) (htokens ▸ ht)
  | cancel hcarried hgrip htokens =>
    rw [htokens] at ht
    rcases List.mem_cons.1 ht with rfl | ht
    · exact .inl (List.mem_append_left _ (h.carried w hw _ hcarried))
    · exact h.origin_append (heldToken?_of_grip hgrip) ht
  | install hadrift htoken hconnection htokens =>
    rw [htokens] at ht
    rw [made_append]
    refine (h.origin t ht).imp (List.mem_append_left _) ?_
    rintro ⟨hmade, -⟩
    refine ⟨List.mem_append_left _ hmade, fun hheld => ?_⟩
    rw [heldToken?, hconnection] at hheld
    cases hheld
    exact hwatched.not_made rfl hmade
  | drop _ _ hc hnone htokens =>
    rw [htokens] at ht
    have hnot : k.heldToken? ≠ some t := by simp [heldToken?, hnone]
    rw [made_append]
    rcases List.mem_cons.1 ht with rfl | ht
    · exact .inr ⟨List.mem_append_left _ (hwatched.held _ (heldToken?_of_connection hc)), hnot⟩
    · exact (h.origin t ht).imp (List.mem_append_left _) fun hmade => ⟨List.mem_append_left _ hmade.1, hnot⟩
  | @rekey _ _ _ key c _ _ hc _ hk =>
    subst hk
    rw [cancelled_rekey] at ht
    rcases mem_cancelled_hush.1 ht with hping | ht
    · obtain ⟨⟨n, hpath⟩, key', -, hmem⟩ := hwatched.named hc hping
      rw [made_append, rekey_heldToken? hc, heldToken?_of_connection hc]
      refine .inr ⟨List.mem_append_left _ (made_of_mem_pingTokens (mem_pingTokens hmem)), fun heq => ?_⟩
      have hlength := congrArg List.length (congrArg Token.path (Option.some.inj heq) |>.trans hpath)
      rw [List.length_append, List.length_singleton] at hlength
      exact absurd hlength (Nat.ne_of_lt (Nat.lt_add_one _))
    · exact h.origin_append (rekey_heldToken? hc) ht

theorem step {n : Nat} (h : Brought log l) (hwatched : Watched log l) (hn : l.work[n]? = some w)
    (hstep : WorkStep world l w w' k) (ds : List Mark) : Brought (log ++ ds) (k.setTask n w') := by
  have hw := List.mem_of_getElem? hn
  have hcarried (t : Token) (ht : t ∈ w'.carried) : Mark.brought t ∈ log :=
    (hstep.mem_carried ht).elim (h.carried w hw t) (h.parent t)
  obtain ⟨vs, hvs, hspawned⟩ : ∃ vs, k.work = l.work ++ vs ∧ ∀ v ∈ vs, ∀ t ∈ v.carried, t ∈ w.carried := by
    refine hstep.exists_spawned_of (fun _ _ => nofun) ?_
    rintro token retryOnClose link rfl t ht
    exact ht
  refine ⟨?_, fun t ht => List.mem_append_left _ ?_, fun t ht => h.origin_step hwatched hw hstep ds ht⟩
  · refine forall_mem_setTask (forall_mem_append hvs ?_ ?_) fun t ht => List.mem_append_left _ (hcarried t ht)
    · exact fun v hv t ht => List.mem_append_left _ (h.carried v hv t ht)
    · exact fun v hv t ht => List.mem_append_left _ (h.carried w hw t (hspawned v hv t ht))
  · rcases hstep.parent with ⟨hparent, -⟩ | ⟨-, -, hparent⟩
    · exact h.parent t (hparent ▸ ht)
    · exact hcarried t (Work.mem_carried_of_token? (hparent.symm.trans ht))

/-- A caller who cancels a token brings it, and so does one who starts a chain. -/
theorem outside {m : Move} (h : Brought log l) (hstep : l.step world m = some k) (hm : ∀ n c, m ≠ .work n c) :
    Brought (log ++ marks m l k) k := by
  obtain ⟨hgrip, htokens⟩ := grip_outside hstep hm
  obtain ⟨vs, hvs, hcalled⟩ := exists_called hstep hm
  have hheld := heldToken?_of_grip hgrip
  refine ⟨forall_mem_append hvs ?_ ?_, fun t ht => ?_, fun t ht => ?_⟩
  · exact fun w hw t ht => List.mem_append_left _ (h.carried w hw t ht)
  · exact fun v hv t ht => List.mem_append_right _ (hcalled v hv t ht)
  · exact List.mem_append_left _ (h.parent t ((step_still hstep hm).parent ▸ ht))
  · rcases htokens with hsame | ⟨u, rfl, hcancel⟩
    · exact h.origin_append hheld (hsame ▸ ht)
    · rw [hcancel] at ht
      rcases List.mem_cons.1 ht with rfl | ht
      · exact .inl (List.mem_append_right _ (List.mem_singleton_self _))
      · exact h.origin_append hheld ht

end Brought

theorem watched_of_recorded (h : Schedule.Recorded (step world) marks (create session) log l) :
    Watched log l ∧ Brought log l := by
  induction h with
  | start => exact ⟨.create session, .create session⟩
  | @step log l k m hbefore hstep ih =>
    obtain ⟨hwatched, hbrought⟩ := ih
    rcases exists_work_or m with ⟨n, choice, rfl⟩ | hm
    · obtain ⟨w, w', k', hn, hwork, rfl⟩ := step_work hstep
      obtain ⟨notes, hnoted⟩ := noted_of_recorded hbefore
      exact ⟨hwatched.step choice hnoted.sheltered hn hwork, hbrought.step hwatched hn hwork _⟩
    · exact ⟨hwatched.outside hstep hm, hbrought.outside hstep hm⟩

/-! What is not cancelled. -/

theorem mem_livePings {t : Token} : t ∈ livePings log l ↔ t ∈ pingTokens log ∧ l.isCancelled t = false := by
  rw [livePings, List.mem_filter, Bool.not_eq_true']

/-- Only what the connection names can be. -/
theorem Watched.keepalive?_of_live (h : Watched log l) {t : Token} (ht : t ∈ livePings log l) :
    l.keepalive? = some t := by
  obtain ⟨hmem, hlive⟩ := mem_livePings.1 ht
  refine (h.others t hmem).resolve_left ?_
  rw [hlive]
  exact Bool.false_ne_true

theorem Watched.livePings_eq (h : Watched log l) {t : Token} (ht : t ∈ livePings log l) : livePings log l = [t] := by
  have hsame (u : Token) (hu : u ∈ livePings log l) : u = t :=
    Option.some.inj ((h.keepalive?_of_live hu).symm.trans (h.keepalive?_of_live ht))
  have hnodup : (livePings log l).Nodup := h.distinct.filter _
  rw [List.eq_replicate_of_mem hsame] at hnodup ht ⊢
  obtain ⟨hlength, -⟩ := List.mem_replicate.1 ht
  rw [Nat.le_antisymm (List.nodup_replicate.1 hnodup) (Nat.one_le_iff_ne_zero.2 hlength), List.replicate_one]

/-- What is not cancelled is below the token of the last chain, and so that is not cancelled. -/
theorem Sheltered.exists_parent (h : Sheltered l) {c t : Token} (hheld : l.heldToken? = some c)
    (hbelow : c.path <+: t.path) (hlive : l.isCancelled t = false) :
    ∃ p, l.parent = some p ∧ p.path <+: c.path ∧ l.isCancelled p = false := by
  have hnot {u : Token} (hu : u.path <+: t.path) (hcancelled : l.isCancelled u) : False :=
    Bool.false_ne_true (hlive.symm.trans (Cancellation.isCancelled_of_prefix hcancelled hu))
  rcases h.below with hloose | hattached
  · exact absurd (hloose c hheld) (hnot hbelow)
  · obtain ⟨p, n, hp, hpath⟩ := hattached c hheld
    have habove : p.path <+: c.path := hpath ▸ List.prefix_append ..
    exact ⟨p, hp, habove, Bool.eq_false_iff.2 (hnot (habove.trans hbelow))⟩

/-- The next token below that of the connection is not cancelled, unless somebody has brought one of the two. -/
theorem Brought.live_below (h : Brought log l) (hwatched : Watched log l) (hattached : Attached l) {c t : Token}
    (hheld : l.heldToken? = some c) (hpath : t.path = c.path ++ [l.tokens.fresh]) (hc : Mark.brought c ∉ log)
    (ht : Mark.brought t ∉ log) (hlive : l.parent.all l.isCancelled = false) : ¬ l.isCancelled t := by
  obtain ⟨p, n, hp, hparent⟩ := hattached c hheld
  rw [hp, Option.all_some] at hlive
  rintro hcancelled
  obtain ⟨u, hu, habove⟩ := isCancelled_iff.1 hcancelled
  rw [hpath, List.prefix_concat_iff, ← hpath, hparent, List.prefix_concat_iff, ← hparent] at habove
  rcases habove with hsame | hsame | habove
  · obtain rfl : u = t := congrArg Token.mk hsame
    exact (h.origin _ hu).elim ht fun hold => hwatched.not_made hpath hold.1
  · obtain rfl : u = c := congrArg Token.mk hsame
    exact (h.origin _ hu).elim hc fun hold => hold.2 hheld
  · exact Bool.false_ne_true (hlive.symm.trans (isCancelled_iff.2 ⟨u, hu, habove⟩))

/-- The token that is made at a key is not cancelled, unless its chain is. -/
theorem Watched.newest (h : Watched log l) (hbrought : Brought log l) (hattached : Attached l) {c : Connection}
    {key : CipherKey} (hc : l.connection = some c) (hpinging : l.session.settings.pingInterval ≠ 0)
    (hhonest : Honest (log ++ [.keyed c.link key (l.rekey key c).2.keepalive?]))
    (hlive : l.parent.all l.isCancelled = false) :
    ∃ t, (l.rekey key c).2.keepalive? = some t ∧ (l.rekey key c).2.isCancelled t = false := by
  have hk := congrArg Prod.snd (rekey_of_pinging hpinging key c)
  set t : Token := ⟨c.token.path ++ [l.tokens.fresh]⟩
  have hkeepalive : (l.rekey key c).2.keepalive? = some t := by rw [hk]; rfl
  have hheld := heldToken?_of_connection hc
  rw [hkeepalive] at hhonest
  have hown {u : Token} (hu : u ∈ made log ∨ u = t) : Mark.brought u ∉ log := by
    refine fun hmem => hhonest u ?_ (List.mem_append_left _ hmem)
    rw [made_append]
    exact List.mem_append.2 (hu.imp_right fun heq => List.mem_singleton.2 heq)
  refine ⟨t, hkeepalive, Bool.eq_false_iff.2 fun hcancelled => ?_⟩
  obtain ⟨u, hu, habove⟩ := isCancelled_iff.1 hcancelled
  rw [cancelled_rekey] at hu
  rcases mem_cancelled_hush.1 hu with hping | hu
  · -- What was pinged by so far is as long, and has a lower number.
    obtain ⟨⟨m, hpath⟩, key', -, hmem⟩ := h.named hc hping
    have hlength : u.path.length = t.path.length := by rw [hpath, List.length_append, List.length_append]; rfl
    have heq : u = t := congrArg Token.mk (habove.eq_of_length hlength)
    exact h.not_made rfl (heq ▸ made_of_mem_pingTokens (mem_pingTokens hmem))
  · exact hbrought.live_below h hattached hheld rfl (hown (.inl (h.held _ hheld))) (hown (.inr rfl)) hlive
      (isCancelled_iff.2 ⟨u, hu, habove⟩)

/-- On every run: of all tokens that were ever made for tasks to ping by, at most one is not cancelled. If one is not,
the connection that is held names it and has the key that it was made at, pings are to be sent, and the token of the
last chain, above it, is not cancelled either. Where no connection is held, all are cancelled. No task pings by any
other token. And a key that is accepted leaves just the token that is made for it, unless no pings are to be sent or the
chain is cancelled; here callers have only tokens of their own. -/
theorem one_task_pings (h : Schedule.Recorded (step world) marks (create session) log l) :
    (pingTokens log).Nodup ∧
    (∀ t ∈ livePings log l, livePings log l = [t] ∧ 0 < session.settings.pingInterval ∧
      (∃ c key, l.connection = some c ∧ c.keepalive = some t ∧ c.cipherKey = some key ∧
        Mark.keyed c.link key (some t) ∈ log) ∧
      ∃ p, l.parent = some p ∧ p.path <+: t.path ∧ l.isCancelled p = false) ∧
    (l.connection = none → livePings log l = []) ∧
    (∀ w ∈ l.work, ∀ t, w.ping? = some t → t ∈ pingTokens log) ∧
    ∀ (n : Nat) (choice : Choice) (parent : Token) (link : Nat) (b : Bytes) (key : CipherKey) (c : Connection)
      (k : Listener), l.work[n]? = some (.chain parent (.handling link b)) → Reaction.keyOf? b = some key →
        l.connection = some c → l.step world (.work n choice) = some k → 0 < session.settings.pingInterval →
          Honest (log ++ marks (.work n choice) l k) → l.isCancelled parent = false →
            ∃ t, marks (.work n choice) l k = [.keyed c.link key (some t)] ∧ k.keepalive? = some t ∧
              livePings (log ++ marks (.work n choice) l k) k = [t] := by
  obtain ⟨hwatched, hbrought⟩ := watched_of_recorded h
  obtain ⟨notes, hnoted⟩ := noted_of_recorded h
  have hsession : l.session = session := hnoted.based.rooted.same
  refine ⟨hwatched.distinct, fun t ht => ?_, fun hnone => ?_, hwatched.tasks, ?_⟩
  · obtain ⟨hmem, hlive⟩ := mem_livePings.1 ht
    obtain ⟨c, hc, hping⟩ := Option.bind_eq_some_iff.1 (hwatched.keepalive?_of_live ht)
    obtain ⟨⟨m, hpath⟩, key, hkey, hkeyed⟩ := hwatched.named hc hping
    have hbelow : c.token.path <+: t.path := hpath ▸ List.prefix_append ..
    obtain ⟨p, hp, habove, hparent⟩ := hnoted.sheltered.exists_parent (heldToken?_of_connection hc) hbelow hlive
    refine ⟨hwatched.livePings_eq ht, ?_, ⟨c, key, hc, hping, hkey, hkeyed⟩, p, hp, habove.trans hbelow, hparent⟩
    exact Nat.pos_of_ne_zero (hsession ▸ hwatched.interval (List.ne_nil_of_mem hmem))
  · refine List.eq_nil_iff_forall_not_mem.2 fun t ht => ?_
    have hping := hwatched.keepalive?_of_live ht
    rw [keepalive?, hnone] at hping
    cases hping
  · intro n choice parent link b key c k hn hb hc hstep hpinging hhonest hlive
    obtain ⟨w, w', k', hn', hwork, rfl⟩ := step_work hstep
    obtain rfl := Option.some.inj (hn'.symm.trans hn)
    have hkey : (Work.chain parent (.handling link b)).keyFor? l = some (c, key) := by
      rw [Work.keyFor?, hc, Option.bind_some, hb, Option.map_some]
    obtain ⟨hactive, hadrift, -, rfl, -⟩ := hwork.rekeys hkey
    have hw := List.mem_of_getElem? hn
    have hparent : l.parent = some parent := (hnoted.parented _ hw hactive).symm
    have hlive : l.parent.all l.isCancelled = false := by rw [hparent]; exact hlive
    have hmarks := marks_of_key choice (k := (l.rekey key c).2.setTask n w') hn hkey
    obtain ⟨t, hping, hcancelled⟩ := hwatched.newest hbrought (hnoted.sheltered.attached _ hw hactive hadrift hlive) hc
      (hsession ▸ hpinging.ne') (hmarks ▸ hhonest) hlive
    have hnext := hwatched.step choice hnoted.sheltered hn hwork
    have hmarks : marks (.work n choice) l ((l.rekey key c).2.setTask n w') = [.keyed c.link key (some t)] :=
      hmarks.trans (by rw [← hping]; rfl)
    refine ⟨t, hmarks, hping, hnext.livePings_eq (mem_livePings.2 ⟨?_, hcancelled⟩)⟩
    exact mem_pingTokens (List.mem_append_right _ (hmarks ▸ List.mem_singleton_self _))

def pingSession : Session := { scantSession with settings := { scantSession.settings with pingInterval := 1000 } }

/-- The peer sends a key, and the reading task passes it on. -/
def keyMoves (key : String) : List Move :=
  let body := Text.toBytes { Envelope.empty with key := some key }.render
  .peerSend 0 (.binary (Frame.encode ⟨.cipherKey, body⟩)) :: List.replicate 2 (.reader 0 .proceed)

/-- One key is accepted, and a task is started to ping; then another key is taken from the queue. -/
def rekeyingMoves : List Move :=
  keyMoves "a" ++ List.replicate 5 (.work 1 .proceed) ++ keyMoves "b" ++ List.replicate 2 (.work 1 .proceed)

/-- Whether the chain is about to accept another key, and then does. -/
def isRekeying (r : List Mark × Listener) : Bool :=
  match r.2.work[1]?, r.2.connection, r.2.step openWorld (.work 1 .proceed) with
  | some (Work.chain parent (.handling _ b)), some _, some k =>
    let ds := marks (.work 1 .proceed) r.2 k
    !r.2.isCancelled parent && Reaction.keyOf? b == some ⟨"b"⟩ && livePings r.1 r.2 == [⟨[0, 0, 1]⟩] &&
      ds == [.keyed 0 ⟨"b"⟩ (some ⟨[0, 0, 2]⟩)] && Decidable.decide (Honest (r.1 ++ ds))
  | _, _, _ => false

/-- A task pings by the token that was made at the first key, until the second key is accepted. -/
theorem one_task_pings_rekeyed : ∃ log l k,
    Schedule.Recorded (step openWorld) marks (create pingSession) log l ∧ livePings log l = [⟨[0, 0, 1]⟩] ∧
      l.step openWorld (.work 1 .proceed) = some k ∧ Honest (log ++ marks (.work 1 .proceed) l k) ∧
        livePings (log ++ marks (.work 1 .proceed) l k) k = [⟨[0, 0, 2]⟩] := by
  have hran : (Schedule.record (step openWorld) marks (dialedMoves rekeyingMoves) ([], create pingSession)).any
      isRekeying = true := by decide +kernel
  obtain ⟨log, l, hrecorded, hrekeying⟩ := Schedule.exists_recorded hran
  unfold isRekeying at hrekeying
  split at hrekeying
  · next parent link b c k hn hc hstep =>
    simp only [Bool.and_eq_true, beq_iff_eq, Bool.not_eq_true', decide_eq_true_eq] at hrekeying
    obtain ⟨⟨⟨⟨hlive, hb⟩, hold⟩, hmarks⟩, hhonest⟩ := hrekeying
    obtain ⟨-, -, -, -, hnewest⟩ := one_task_pings hrecorded
    obtain ⟨t, ht, -, hnew⟩ := hnewest 1 .proceed parent link b _ c k hn hb hc hstep (by decide) hhonest hlive
    have hlast : [t] = [⟨[0, 0, 2]⟩] := congrArg pingTokens (ht.symm.trans hmarks)
    cases hlast
    exact ⟨log, l, k, hrecorded, hold, hstep, hhonest, hnew⟩
  · cases hrekeying

end ChatWire.Listener
