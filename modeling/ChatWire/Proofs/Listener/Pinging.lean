import ChatWire.Proofs.Listener.Shelter

/-! At most one task pings. Each key that is accepted cancels the token of the task that has pinged so far, and makes
another one below the token of the connection; so what is not cancelled of all tokens ever made for such tasks is the
one that the connection names, if anything. -/

namespace ChatWire.Listener

/-- What a move has to do with tokens. A caller brings one; a connection has come to be held, with one of its own; or a
key is accepted on a connection, with the token of the task that is to ping from then on, if one is. -/
inductive Mark
  | brought (t : Token)
  | held (t : Token)
  | keyed (link : Nat) (key : CipherKey) (ping : Option Token)
  deriving DecidableEq, Repr

/-- the token of the task that is to ping on the connection that is held -/
def keepalive? (l : Listener) : Option Token := l.connection.bind Connection.keepalive

/-- the connection on which a task is about to accept a key, and the key -/
def Work.keyFor? (l : Listener) : Work → Option (Connection × CipherKey)
  | .chain _ (.handling _ b) => l.connection.bind fun c => (Reaction.keyOf? b).map (c, ·)
  | _ => none

def marks (m : Move) (l k : Listener) : List Mark :=
  match m with
  | .start token _ | .cancel token => [.brought token]
  | .work n _ =>
    match (l.work[n]?).bind (Work.keyFor? l) with
    | some (c, key) => [.keyed c.link key k.keepalive?]
    | none => if k.heldToken? = l.heldToken? then [] else k.heldToken?.toList.map .held
  | _ => []

def Mark.ping? : Mark → Option Token
  | .keyed _ _ ping => ping
  | _ => none

def Mark.made? : Mark → Option Token
  | .brought _ => none
  | .held t => some t
  | .keyed _ _ ping => ping

/-- all tokens ever made for tasks that ping -/
def pingTokens (log : List Mark) : List Token := log.filterMap Mark.ping?

/-- all tokens that the listener has made -/
def made (log : List Mark) : List Token := log.filterMap Mark.made?

/-- Those tokens of tasks that ping which are not cancelled. -/
def livePings (log : List Mark) (l : Listener) : List Token := (pingTokens log).filter fun t => !l.isCancelled t

/-- the token of a task that pings, or that is about to be started to ping -/
def Work.ping? : Work → Option Token
  | .keepalive _ token _ => some token
  | .chain _ (.publishing _ _ ping) => ping.map Prod.snd
  | _ => none

variable {world : Surroundings} {session : Session} {log : List Mark} {l k : Listener} {w w' : Work}

theorem isCancelled_iff {t : Token} : l.isCancelled t ↔ ∃ u ∈ l.tokens.cancelled, u.path <+: t.path := by
  simp [isCancelled, Cancellation.isCancelled, List.isPrefixOf_iff_prefix]

theorem keepalive?_eq_grip (l : Listener) : l.keepalive? = l.grip.bind Connection.keepalive := by
  rw [keepalive?, grip, Option.bind_map]
  rfl

theorem keepalive?_of_connection {c : Connection} (h : l.connection = some c) : l.keepalive? = c.keepalive := by
  rw [keepalive?, h, Option.bind_some]

theorem pingTokens_append (log ds : List Mark) : pingTokens (log ++ ds) = pingTokens log ++ pingTokens ds :=
  List.filterMap_append

theorem made_append (log ds : List Mark) : made (log ++ ds) = made log ++ made ds := List.filterMap_append

theorem made_of_mem_pingTokens {t : Token} (h : t ∈ pingTokens log) : t ∈ made log := by
  obtain ⟨x, hx, hping⟩ := List.mem_filterMap.1 h
  refine List.mem_filterMap.2 ⟨x, hx, ?_⟩
  cases x with
  | keyed => exact hping
  | brought | held => cases hping

/-! Accepting a key. -/

/-- The task that has pinged so far is cancelled. -/
def hush (c : Connection) (tokens : Cancellation) : Cancellation := c.keepalive.elim tokens tokens.cancel

theorem fresh_hush (c : Connection) (tokens : Cancellation) : (hush c tokens).fresh = tokens.fresh := by
  unfold hush
  cases c.keepalive <;> rfl

theorem mem_cancelled_hush {c : Connection} {tokens : Cancellation} {t : Token} :
    t ∈ (hush c tokens).cancelled ↔ c.keepalive = some t ∨ t ∈ tokens.cancelled := by
  unfold hush
  cases c.keepalive with
  | none => simp
  | some u => simp [Cancellation.cancel, eq_comm]

theorem rekey_of_mute (h : l.session.settings.pingInterval = 0) (key : CipherKey) (c : Connection) :
    l.rekey key c = (none, { l with
      tokens := hush c l.tokens
      connection := some { c with cipherKey := some key, keepalive := none } }) := by
  unfold rekey hush
  cases c.keepalive with
  | none => exact if_pos h
  | some t => exact if_pos h

theorem rekey_of_pinging (h : l.session.settings.pingInterval ≠ 0) (key : CipherKey) (c : Connection) :
    let t : Token := ⟨c.token.path ++ [l.tokens.fresh]⟩
    l.rekey key c = (some (c.link, t), { l with
      tokens := ⟨l.tokens.fresh + 1, (hush c l.tokens).cancelled⟩
      connection := some { c with cipherKey := some key, keepalive := some t } }) := by
  unfold rekey hush
  cases c.keepalive with
  | none => exact if_neg h
  | some t => exact if_neg h

/-- The token of the task that has pinged so far is cancelled, and no other. -/
theorem cancelled_rekey (key : CipherKey) (c : Connection) :
    (l.rekey key c).2.tokens.cancelled = (hush c l.tokens).cancelled := by
  by_cases h : l.session.settings.pingInterval = 0
  · rw [rekey_of_mute h]
  · rw [rekey_of_pinging h]

theorem isCancelled_rekey {c : Connection} (key : CipherKey) (hc : l.connection = some c) {t : Token}
    (h : l.isCancelled t ∨ l.keepalive? = some t) : (l.rekey key c).2.isCancelled t := by
  rw [isCancelled_iff, cancelled_rekey]
  rcases h with h | h
  · obtain ⟨u, hu, habove⟩ := isCancelled_iff.1 h
    exact ⟨u, mem_cancelled_hush.2 (.inr hu), habove⟩
  · exact ⟨t, mem_cancelled_hush.2 (.inl ((keepalive?_of_connection hc).symm.trans h)), List.prefix_rfl⟩

/-- What a task that accepts a key does. -/
theorem WorkStep.rekeys {c : Connection} {key : CipherKey} (h : WorkStep world l w w' k)
    (hkey : w.keyFor? l = some (c, key)) : w.isActive ∧ w.isAdrift = false ∧ l.connection = some c ∧
      k = (l.rekey key c).2 ∧ w'.ping? = (l.rekey key c).1.map Prod.snd := by
  cases w with
  | chain parent stage =>
    cases stage with
    | handling link b =>
      obtain ⟨c', hc, hkey⟩ := Option.bind_eq_some_iff.1 hkey
      obtain ⟨key', hb, heq⟩ := Option.map_eq_some_iff.1 hkey
      cases heq
      cases h with
      | chain hs =>
        cases hs with
        | handle hhandle =>
          simp only [handle, Reaction.ofBytes_eq_rekey_iff.2 hb, hc] at hhandle
          obtain ⟨rfl, rfl⟩ := Prod.mk.inj hhandle
          exact ⟨rfl, rfl, hc, rfl, rfl⟩
    | _ => cases hkey
  | _ => cases hkey

/-- A step at which no key is accepted brings no token for a task to ping by. -/
theorem WorkStep.ping?_of_keyless (h : WorkStep world l w w' k) (hkey : w.keyFor? l = none) :
    w'.ping? = none ∨ w'.ping? = w.ping? := by
  cases h with
  | start | stop => exact .inl rfl
  | keepalive => exact .inr rfl
  | chain hs =>
    cases hs with
    | publish => exact .inr rfl
    | @handle link b _ _ hhandle =>
      unfold handle at hhandle
      cases hr : Reaction.ofBytes b with
      | rekey key =>
        rw [hr] at hhandle
        cases hc : l.connection with
        | none =>
          rw [hc] at hhandle
          cases hhandle
          exact .inl rfl
        | some c =>
          rw [Work.keyFor?, hc, Option.bind_some, Reaction.ofBytes_eq_rekey_iff.1 hr] at hkey
          cases hkey
      | _ =>
        rw [hr] at hhandle
        cases hhandle
        exact .inl rfl
    | _ => exact .inl rfl

/-- A task that is started to ping does so by the token that its chain has for it. -/
theorem WorkStep.exists_spawned_ping (h : WorkStep world l w w' k) :
    ∃ vs, k.work = l.work ++ vs ∧ ∀ v ∈ vs, v.ping? = none ∨ v.ping? = w.ping? := by
  have hnone (hwork : k.work = l.work) : ∃ vs, k.work = l.work ++ vs ∧ ∀ v ∈ vs, v.ping? = none ∨ v.ping? = w.ping? :=
    ⟨[], hwork.trans (List.append_nil _).symm, by simp⟩
  cases hsteady : w.isSteady with
  | true => exact hnone (h.steady hsteady).2
  | false =>
    cases h with
    | start hs =>
      cases hs with
      | spawn => exact ⟨_, rfl, List.forall_mem_singleton.2 (.inl rfl)⟩
      | claim | reopenTracker | reopenStreams | refuse => exact hnone rfl
      | _ => cases hsteady
    | stop hs => exact hnone hs.quiet.work
    | chain hs =>
      cases hs with
      | beginPing => exact ⟨_, rfl, List.forall_mem_singleton.2 (.inr rfl)⟩
      | closeStreams | finish => exact hnone rfl
      | _ => cases hsteady
    | keepalive hs => exact hnone hs.quiet.work

/-- No task pings by a token that was not made at a key. -/
theorem WorkStep.ping?_of_mem (h : WorkStep world l w w' k) {n : Nat} (hn : l.work[n]? = some w) {v : Work}
    (hv : v ∈ (k.setTask n w').work) {t : Token} (ht : v.ping? = some t) :
    (∃ u ∈ l.work, u.ping? = some t) ∨ w.keyFor? l ≠ none ∧ w'.ping? = some t := by
  have hw := List.mem_of_getElem? hn
  obtain ⟨vs, hvs, hspawned⟩ := h.exists_spawned_ping
  rcases List.mem_or_eq_of_mem_set hv with hv | rfl
  · rcases List.mem_append.1 (hvs ▸ hv) with hv | hv
    · exact .inl ⟨v, hv, ht⟩
    · rcases hspawned v hv with hnone | hsame
      · cases ht.symm.trans hnone
      · exact .inl ⟨w, hw, hsame ▸ ht⟩
  · by_cases hkey : w.keyFor? l = none
    · rcases h.ping?_of_keyless hkey with hnone | hsame
      · cases ht.symm.trans hnone
      · exact .inl ⟨w, hw, hsame ▸ ht⟩
    · exact .inr ⟨hkey, ht⟩

/-! What is noted of a step. -/

theorem marks_of_key (choice : Choice) {n : Nat} {c : Connection} {key : CipherKey} (hn : l.work[n]? = some w)
    (hkey : w.keyFor? l = some (c, key)) : marks (.work n choice) l k = [.keyed c.link key k.keepalive?] := by
  simp [marks, hn, hkey]

/-- Where no key is accepted, a token that is made is that of a connection which has come to be held. -/
theorem marks_of_keyless (choice : Choice) {n : Nat} (hn : l.work[n]? = some w) (hkey : w.keyFor? l = none) :
    pingTokens (marks (.work n choice) l k) = [] ∧
      (∀ t ∈ made (marks (.work n choice) l k), k.heldToken? = some t) ∧
        ∀ t, k.heldToken? = some t → l.heldToken? = some t ∨ t ∈ made (marks (.work n choice) l k) := by
  have hmarks : marks (.work n choice) l k =
      if k.heldToken? = l.heldToken? then [] else k.heldToken?.toList.map .held := by simp [marks, hn, hkey]
  rw [hmarks]
  split_ifs with hsame
  · exact ⟨rfl, by simp [made], fun t ht => .inl (hsame ▸ ht)⟩
  · cases k.heldToken? with
    | none => exact ⟨rfl, by simp [made], nofun⟩
    | some t => exact ⟨rfl, by simp [made, Mark.made?], by simp [made, Mark.made?]⟩

/-! What the tokens of all connections and all tasks that ping have come to. -/

/-- Each token that the listener made is below another one, and bears a number that was given out. What a task pings by
is either cancelled or the connection that is held names it, and then it is below the token of the connection, which has
got the key that it was made at. -/
structure Watched (log : List Mark) (l : Listener) : Prop where
  numbered : ∀ t ∈ made log, ∃ q n, t.path = q ++ [n] ∧ n < l.tokens.fresh
  distinct : (pingTokens log).Nodup
  held : ∀ t, l.heldToken? = some t → t ∈ made log
  stored : ∀ c t, l.grip = some c → c.keepalive = some t → (∃ n, t.path = c.token.path ++ [n]) ∧
    ∃ key, c.cipherKey = some key ∧ Mark.keyed c.link key (some t) ∈ log
  others : ∀ t ∈ pingTokens log, l.isCancelled t ∨ l.keepalive? = some t
  tasks : ∀ w ∈ l.work, ∀ t, w.ping? = some t → t ∈ pingTokens log
  interval : pingTokens log ≠ [] → l.session.settings.pingInterval ≠ 0

theorem keepalive?_of_grip (h : k.grip = l.grip) : k.keepalive? = l.keepalive? := by
  rw [keepalive?_eq_grip, keepalive?_eq_grip, h]

theorem mem_pingTokens {c : Nat} {key : CipherKey} {t : Token} (h : Mark.keyed c key (some t) ∈ log) :
    t ∈ pingTokens log := List.mem_filterMap.2 ⟨_, h, rfl⟩

namespace Watched

theorem create (session : Session) : Watched [] (create session) where
  numbered _ h := absurd h List.not_mem_nil
  distinct := .nil
  held _ h := nomatch h
  stored _ _ h := nomatch h
  others _ h := absurd h List.not_mem_nil
  tasks _ h := absurd h List.not_mem_nil
  interval h := absurd rfl h

/-- A number that has not been given out is the number of no token. -/
theorem not_made (h : Watched log l) {q : List Nat} {t : Token} (ht : t.path = q ++ [l.tokens.fresh]) :
    t ∉ made log := by
  intro hmem
  obtain ⟨q', n, hpath, hlt⟩ := h.numbered t hmem
  obtain ⟨-, hn⟩ := List.append_inj' (ht.symm.trans hpath) rfl
  exact hlt.ne' (List.head_eq_of_cons_eq hn)

theorem named (h : Watched log l) {c : Connection} {t : Token} (hc : l.connection = some c)
    (ht : c.keepalive = some t) : (∃ n, t.path = c.token.path ++ [n]) ∧
      ∃ key, c.cipherKey = some key ∧ Mark.keyed c.link key (some t) ∈ log :=
  h.stored { c with requests := 0 } t (grip_of_connection hc) ht

/-- What is pinged by goes with the connection. -/
theorem cancelled_of_held (h : Watched log l) (hheld : ∀ u, l.heldToken? = some u → k.isCancelled u) {t : Token}
    (ht : l.keepalive? = some t) : k.isCancelled t := by
  obtain ⟨c, hc, hkeepalive⟩ := Option.bind_eq_some_iff.1 ht
  obtain ⟨⟨n, hpath⟩, -⟩ := h.named hc hkeepalive
  exact Cancellation.isCancelled_of_prefix (hheld _ (heldToken?_of_connection hc)) (hpath ▸ List.prefix_append ..)

/-- Where no task is to ping by another token than before: the connection stays, or what it names is cancelled. -/
theorem keeps {ds : List Mark} (h : Watched log l) (hpings : pingTokens ds = []) (hkeeps : Keeps l k)
    (hfresh : l.tokens.fresh ≤ k.tokens.fresh)
    (hnumbered : ∀ t ∈ made ds, ∃ q n, t.path = q ++ [n] ∧ n < k.tokens.fresh)
    (hheld : ∀ t, k.heldToken? = some t → l.heldToken? = some t ∨ t ∈ made ds)
    (hgrip : k.grip = l.grip ∨ k.keepalive? = none ∧ ∀ t, l.keepalive? = some t → k.isCancelled t)
    (htasks : ∀ w ∈ k.work, ∀ t, w.ping? = some t → t ∈ pingTokens log) : Watched (log ++ ds) k := by
  have hsame : pingTokens (log ++ ds) = pingTokens log := by rw [pingTokens_append, hpings, List.append_nil]
  refine ⟨fun t ht => ?_, hsame ▸ h.distinct, fun t ht => ?_, fun c t hc ht => ?_, fun t ht => ?_, hsame ▸ htasks,
    hsame ▸ hkeeps.session ▸ h.interval⟩
  · rcases List.mem_append.1 (made_append log ds ▸ ht) with ht | ht
    · obtain ⟨q, n, hpath, hlt⟩ := h.numbered t ht
      exact ⟨q, n, hpath, hlt.trans_le hfresh⟩
    · exact hnumbered t ht
  · rw [made_append]
    exact List.mem_append.2 ((hheld t ht).imp_left (h.held t))
  · rcases hgrip with hgrip | ⟨hnone, -⟩
    · obtain ⟨hbelow, key, hkey, hmem⟩ := h.stored c t (hgrip ▸ hc) ht
      exact ⟨hbelow, key, hkey, List.mem_append_left _ hmem⟩
    · rw [keepalive?_eq_grip, hc, Option.bind_some, ht] at hnone
      cases hnone
  · rcases hgrip with hgrip | ⟨-, hold⟩
    · rw [keepalive?_of_grip hgrip]
      exact (h.others t (hsame ▸ ht)).imp_left (hkeeps.cancelled t)
    · exact .inl ((h.others t (hsame ▸ ht)).elim (hkeeps.cancelled t) (hold t))

/-- A key is accepted, and no task is to ping. -/
theorem mute {c : Connection} (h : Watched log l) (hc : l.connection = some c)
    (hmute : l.session.settings.pingInterval = 0) (key : CipherKey) {n : Nat} {w' : Work}
    (htasks : ∀ w ∈ ((l.rekey key c).2.setTask n w').work, ∀ t, w.ping? = some t → t ∈ pingTokens log) :
    Watched (log ++ [.keyed c.link key none]) ((l.rekey key c).2.setTask n w') := by
  have hk := congrArg Prod.snd (rekey_of_mute hmute key c)
  have hcancelled {t : Token} (ht : l.isCancelled t ∨ l.keepalive? = some t) :
      ((l.rekey key c).2.setTask n w').isCancelled t := isCancelled_rekey key hc ht
  have hkeeps : Keeps l ((l.rekey key c).2.setTask n w') := by
    refine ⟨?_, fun t ht => hcancelled (.inl ht), ?_⟩ <;> rw [hk]
    · rfl
    · exact fun h => h
  refine h.keeps rfl hkeeps ?_ nofun ?_ (.inr ⟨?_, fun t ht => hcancelled (.inr ht)⟩) htasks
  · rw [hk]
    exact (fresh_hush c l.tokens).ge
  · exact fun t ht => .inl ((rekey_heldToken? hc).symm.trans ht)
  · rw [hk]
    rfl

/-- A key is accepted, and a task is to ping from then on. -/
theorem pinging {c : Connection} (h : Watched log l) (hc : l.connection = some c)
    (hpinging : l.session.settings.pingInterval ≠ 0) (key : CipherKey) {n : Nat} {w' : Work}
    (htasks : ∀ w ∈ ((l.rekey key c).2.setTask n w').work, ∀ t, w.ping? = some t →
      t ∈ pingTokens log ∨ (l.rekey key c).2.keepalive? = some t) :
    Watched (log ++ [.keyed c.link key (l.rekey key c).2.keepalive?]) ((l.rekey key c).2.setTask n w') := by
  have hk := congrArg Prod.snd (rekey_of_pinging hpinging key c)
  set t : Token := ⟨c.token.path ++ [l.tokens.fresh]⟩
  have hkeepalive : (l.rekey key c).2.keepalive? = some t := by rw [hk]; rfl
  have hfresh : (l.rekey key c).2.tokens.fresh = l.tokens.fresh + 1 := by rw [hk]
  rw [hkeepalive] at htasks ⊢
  have hpings : pingTokens (log ++ [.keyed c.link key (some t)]) = pingTokens log ++ [t] := pingTokens_append ..
  have hmade : made (log ++ [.keyed c.link key (some t)]) = made log ++ [t] := made_append ..
  refine ⟨fun u hu => ?_, ?_, fun u hu => ?_, fun c' u hc' hu => ?_, fun u hu => ?_, fun w hw u hu => ?_, fun _ => ?_⟩
  · rw [setTask, hfresh]
    rcases List.mem_append.1 (hmade ▸ hu) with hu | hu
    · obtain ⟨q, m, hq, hlt⟩ := h.numbered u hu
      exact ⟨q, m, hq, hlt.trans (Nat.lt_add_one _)⟩
    · obtain rfl := List.mem_singleton.1 hu
      exact ⟨_, _, rfl, Nat.lt_add_one _⟩
  · rw [hpings]
    refine List.nodup_append'.2 ⟨h.distinct, List.nodup_singleton t, ?_⟩
    exact List.disjoint_singleton.2 fun hu => h.not_made rfl (made_of_mem_pingTokens hu)
  · rw [hmade]
    exact List.mem_append_left _ (h.held u ((rekey_heldToken? hc).symm.trans hu))
  · rw [hk] at hc'
    cases hc'
    cases hu
    exact ⟨⟨_, rfl⟩, key, rfl, List.mem_append_right _ (List.mem_singleton_self _)⟩
  · rcases List.mem_append.1 (hpings ▸ hu) with hu | hu
    · exact .inl (isCancelled_rekey key hc (h.others u hu))
    · obtain rfl := List.mem_singleton.1 hu
      exact .inr hkeepalive
  · rw [hpings]
    exact List.mem_append.2 ((htasks w hw u hu).imp_right fun heq => List.mem_singleton.2 (Option.some.inj heq).symm)
  · rw [hk]
    exact hpinging

theorem step_keyed {n : Nat} {c : Connection} {key : CipherKey} (choice : Choice) (h : Watched log l)
    (hn : l.work[n]? = some w) (hstep : WorkStep world l w w' k) (hkey : w.keyFor? l = some (c, key)) :
    Watched (log ++ marks (.work n choice) l (k.setTask n w')) (k.setTask n w') := by
  obtain ⟨-, -, hc, rfl, hping⟩ := hstep.rekeys hkey
  have htasks (v : Work) (hv : v ∈ ((l.rekey key c).2.setTask n w').work) (t : Token) (ht : v.ping? = some t) :
      t ∈ pingTokens log ∨ (l.rekey key c).1.map Prod.snd = some t := by
    rcases hstep.ping?_of_mem hn hv ht with ⟨u, hu, hut⟩ | ⟨-, ht⟩
    · exact .inl (h.tasks u hu t hut)
    · exact .inr (hping ▸ ht)
  rw [marks_of_key choice hn hkey]
  by_cases hmute : l.session.settings.pingInterval = 0
  · have hnone : ((l.rekey key c).2.setTask n w').keepalive? = none := by rw [rekey_of_mute hmute]; rfl
    rw [hnone]
    refine h.mute hc hmute key fun v hv t ht => (htasks v hv t ht).resolve_right ?_
    simp [rekey_of_mute hmute]
  · refine h.pinging hc hmute key fun v hv t ht => (htasks v hv t ht).imp_right fun hnew => ?_
    rw [rekey_of_pinging hmute] at hnew ⊢
    exact hnew

theorem step_keyless {n : Nat} (choice : Choice) (h : Watched log l) (hsheltered : Sheltered l)
    (hn : l.work[n]? = some w) (hstep : WorkStep world l w w' k) (hkey : w.keyFor? l = none) :
    Watched (log ++ marks (.work n choice) l (k.setTask n w')) (k.setTask n w') := by
  have htasks (v : Work) (hv : v ∈ (k.setTask n w').work) (t : Token) (ht : v.ping? = some t) :
      t ∈ pingTokens log := by
    obtain ⟨u, hu, hut⟩ := (hstep.ping?_of_mem hn hv ht).resolve_right fun hsome => hsome.1 hkey
    exact h.tasks u hu t hut
  obtain ⟨hpings, hmade, hheld⟩ := marks_of_keyless choice (k := k.setTask n w') hn hkey
  have hkeeps : Keeps l (k.setTask n w') := hstep.keeps.trans (.setTask ..)
  have hstay (hgrip : k.grip = l.grip) (hfresh : k.tokens.fresh = l.tokens.fresh) :
      Watched (log ++ marks (.work n choice) l (k.setTask n w')) (k.setTask n w') := by
    refine h.keeps hpings hkeeps hfresh.ge (fun t ht => ?_) hheld (.inl hgrip) htasks
    rw [setTask, hfresh]
    exact h.numbered t (h.held t ((heldToken?_of_grip hgrip).symm.trans (hmade t ht)))
  cases hstep.turnover with
  | same hgrip htokens => exact hstay hgrip (by rw [htokens])
  | cancel _ hgrip htokens => exact hstay hgrip (by rw [htokens]; rfl)
  | install hadrift _ hconnection htokens =>
    have hfresh : k.tokens.fresh = l.tokens.fresh + 1 := congrArg Cancellation.fresh htokens
    refine h.keeps hpings hkeeps ?_ (fun t ht => ?_) hheld (.inr ⟨?_, fun t => h.cancelled_of_held ?_⟩) htasks
    · exact (Nat.le_succ _).trans hfresh.ge
    · have ht := hmade t ht
      rw [heldToken?, setTask, hconnection] at ht
      cases ht
      exact ⟨_, _, rfl, by rw [setTask, hfresh]; exact Nat.lt_add_one _⟩
    · rw [keepalive?, setTask, hconnection]
      rfl
    · -- The connection that was held before is left over.
      exact fun u hu => hkeeps.cancelled u (hsheltered.adrift w (List.mem_of_getElem? hn) hadrift u hu)
  | @drop c _ _ hc hnone htokens =>
    refine h.keeps hpings hkeeps (congrArg Cancellation.fresh htokens).ge (fun t ht => ?_) hheld
      (.inr ⟨?_, fun t => h.cancelled_of_held ?_⟩) htasks
    · have ht := hmade t ht
      rw [heldToken?, setTask, hnone] at ht
      cases ht
    · rw [keepalive?, setTask, hnone]
      rfl
    · intro u hu
      obtain rfl := Option.some.inj ((heldToken?_of_connection hc).symm.trans hu)
      refine isCancelled_iff.2 ⟨c.token, ?_, List.prefix_rfl⟩
      rw [setTask, htokens]
      exact List.mem_cons_self
  | rekey hhandling hb hc =>
    subst hhandling
    rw [Work.keyFor?, hc, Option.bind_some, hb] at hkey
    cases hkey

theorem step {n : Nat} (choice : Choice) (h : Watched log l) (hsheltered : Sheltered l) (hn : l.work[n]? = some w)
    (hstep : WorkStep world l w w' k) :
    Watched (log ++ marks (.work n choice) l (k.setTask n w')) (k.setTask n w') := by
  cases hkey : w.keyFor? l with
  | some ck => exact h.step_keyed choice hn hstep hkey
  | none => exact h.step_keyless choice hsheltered hn hstep hkey

/-- Other moves at most bring a caller's token. -/
theorem outside {m : Move} (h : Watched log l) (hstep : l.step world m = some k) (hm : ∀ n c, m ≠ .work n c) :
    Watched (log ++ marks m l k) k := by
  obtain ⟨hgrip, htokens⟩ := grip_outside hstep hm
  obtain ⟨hkeeps, -, vs, hvs, hfresh⟩ := step_outside hstep hm
  have hmade : made (marks m l k) = [] := by
    cases m with
    | work n c => exact absurd rfl (hm n c)
    | _ => rfl
  have hle : l.tokens.fresh ≤ k.tokens.fresh := by
    rcases htokens with hsame | ⟨t, -, hcancel⟩
    · exact hsame ▸ le_rfl
    · exact hcancel ▸ le_rfl
  refine h.keeps ?_ hkeeps hle (by simp [hmade]) ?_ (.inl hgrip) (forall_mem_append hvs h.tasks fun v hv t ht => ?_)
  · exact List.eq_nil_iff_forall_not_mem.2 fun t ht => List.not_mem_nil (hmade ▸ made_of_mem_pingTokens ht)
  · exact fun t ht => .inl ((heldToken?_of_grip hgrip).symm.trans ht)
  · rcases Work.eq_of_isFresh (hfresh v hv) with ⟨token, retryOnClose, rfl⟩ | rfl <;> cases ht

end Watched

end ChatWire.Listener
