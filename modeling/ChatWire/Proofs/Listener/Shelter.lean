import ChatWire.Proofs.Listener.Numbering
import ChatWire.Proofs.Listener.Tracking

/-! The token of the connection that is held. It is below the token of the last chain as long as the chain has the
connection, and cancelled wherever a chain has none, and wherever there is no chain. So a connection that was left over
goes without leaving anything behind when the next one takes its place. -/

namespace ChatWire.Listener

variable {world : Surroundings} {session : Session} {log : List Note} {K : Nat → Option CipherKey} {parent : Token}
  {l k : Listener} {w w' : Work}

/-- the connection that is held, whatever number its next request gets -/
def grip (l : Listener) : Option Connection := l.connection.map fun c => { c with requests := 0 }

def heldToken? (l : Listener) : Option Token := l.connection.map Connection.token

theorem heldToken?_eq_grip (l : Listener) : l.heldToken? = l.grip.map Connection.token := by
  rw [heldToken?, grip, Option.map_map]
  rfl

theorem grip_of_connection {c : Connection} (h : l.connection = some c) : l.grip = some { c with requests := 0 } := by
  rw [grip, h, Option.map_some]

theorem heldToken?_of_connection {c : Connection} (h : l.connection = some c) : l.heldToken? = some c.token := by
  rw [heldToken?, h, Option.map_some]

theorem heldToken?_of_grip (h : k.grip = l.grip) : k.heldToken? = l.heldToken? := by
  rw [heldToken?_eq_grip, heldToken?_eq_grip, h]

/-! What a step does to it. -/

/-- the tokens that a task has from its callers -/
def Work.carried : Work → List Token
  | .start token _ _ => [token]
  | .chain parent _ => [parent]
  | .stop (.cancel parent _) => parent.toList
  | _ => []

/-- Whether a dial has no connection to announce. -/
def Dialing.isAdrift : Dialing → Bool
  | .installed .. | .announcing .. | .finished (.ok _) => false
  | _ => true

def Chain.isAdrift : Chain → Bool
  | .announcing _ | .deciding _ | .exhausted .. | .sleeping .. | .complaining _ => true
  | .dialing _ d => d.isAdrift
  | .finishing _ stage => stage == .enter
  | _ => false

def Starting.isAdrift : Starting → Bool
  | .reopenTracker | .reopenStreams | .failing _ => true
  | .dialing d => d.isAdrift
  | _ => false

/-- Whether a task leads a chain that has no connection. -/
def Work.isAdrift : Work → Bool
  | .start _ _ stage => stage.isAdrift
  | .chain _ stage => stage.isAdrift
  | _ => false

theorem Work.isActive_of_isAdrift (h : w.isAdrift) : w.isActive := by
  cases w with
  | start token retryOnClose stage =>
    cases stage with
    | check | claim | finished => cases h
    | _ => rfl
  | chain parent stage =>
    cases stage with
    | finishing info stage => exact h
    | done => cases h
    | _ => rfl
  | stop | keepalive => cases h

/-- What a step of a task does to the connection that is held, and to the tokens: nothing; or it cancels a token that a
caller has brought; a dial has a new connection held, with a token of its own; a chain drops the connection; or it is
given a key. -/
inductive Turnover (l : Listener) (w w' : Work) (k : Listener) : Prop
  | same : k.grip = l.grip → k.tokens = l.tokens → Turnover l w w' k
  | cancel {t : Token} : t ∈ w.carried → k.grip = l.grip → k.tokens = l.tokens.cancel t → Turnover l w w' k
  | install {parent : Token} {link : Nat} : w.isAdrift → w.token? = some parent →
      k.connection = some ⟨link, none, 0, (l.tokens.child parent).1, none⟩ → k.tokens = (l.tokens.child parent).2 →
        Turnover l w w' k
  | drop {c : Connection} : w.isActive → w'.isAdrift → l.connection = some c → k.connection = none →
      k.tokens = l.tokens.cancel c.token → Turnover l w w' k
  | rekey {parent : Token} {link : Nat} {b : Bytes} {key : CipherKey} {c : Connection} :
      w = .chain parent (.handling link b) → Reaction.keyOf? b = some key → l.connection = some c →
        w' = .chain parent (.publishing link [.cipherKey key] (l.rekey key c).1) → k = (l.rekey key c).2 →
          Turnover l w w' k

theorem exists_setLink_of_stepClosing {link : Nat} {info : CloseInfo} {stage stage' : Transport.Closing}
    (h : l.stepClosing link info stage = some (stage', k)) : ∃ t, k = l.setLink link t := by
  simp only [stepClosing, Option.bind_eq_bind, Option.bind_eq_some_iff, Option.some.injEq] at h
  obtain ⟨t, -, ⟨s, t'⟩, -, heq⟩ := h
  exact ⟨t', (Prod.mk.inj heq).2.symm⟩

theorem Turnover.stepClosing {link : Nat} {info : CloseInfo} {stage stage' : Transport.Closing}
    (h : l.stepClosing link info stage = some (stage', k)) : Turnover l w w' k := by
  obtain ⟨t, rfl⟩ := exists_setLink_of_stepClosing h
  exact .same rfl rfl

theorem DialingStep.turnover {d d' : Dialing} (h : DialingStep world parent l d d' k)
    (hadrift : w.isAdrift = d.isAdrift) (htoken : w.token? = some parent) : Turnover l w w' k := by
  cases h with
  | @install link endpoint =>
    unfold Listener.install
    split
    · exact .same rfl rfl
    · exact .install hadrift htoken rfl rfl
  | close hclosing => exact .stepClosing hclosing
  | _ => exact .same rfl rfl

theorem handle_turnover {link : Nat} {b : Bytes} {chain : Chain} (h : l.handle link b = (chain, k)) :
    Turnover l (.chain parent (.handling link b)) (.chain parent chain) k := by
  unfold handle at h
  cases hr : Reaction.ofBytes b with
  | rekey key =>
    rw [hr] at h
    cases hc : l.connection with
    | none =>
      rw [hc] at h
      cases h
      exact .same rfl rfl
    | some c =>
      rw [hc] at h
      obtain ⟨rfl, rfl⟩ := Prod.mk.inj h
      exact .rekey rfl (Reaction.ofBytes_eq_rekey_iff.1 hr) hc rfl rfl
  | _ =>
    rw [hr] at h
    cases h
    exact .same rfl rfl

theorem ChainStep.turnover {chain chain' : Chain} (h : ChainStep world parent l chain chain' k) :
    Turnover l (.chain parent chain) (.chain parent chain') k := by
  cases h with
  | handle hhandle => exact handle_turnover hhandle
  | yield hclosing | stop hclosing => exact .stepClosing hclosing
  | drop =>
    unfold Listener.drop
    cases hc : l.connection with
    | none => exact .same (by rw [grip, grip, hc]) rfl
    | some c => exact .drop rfl rfl hc rfl rfl
  | dial hd => exact hd.turnover rfl rfl
  | finish => exact .cancel (List.mem_singleton_self _) rfl rfl
  | _ => exact .same rfl rfl

theorem WorkStep.turnover (h : WorkStep world l w w' k) : Turnover l w w' k := by
  cases h with
  | start hs =>
    cases hs with
    | dial hd => exact hd.turnover rfl rfl
    | _ => exact .same rfl rfl
  | stop hs =>
    cases hs with
    | cancel => exact .cancel (List.mem_singleton_self _) rfl rfl
    | close hclosing => exact .stepClosing hclosing
    | _ => exact .same rfl rfl
  | chain hs => exact hs.turnover
  | keepalive hs => cases hs <;> exact .same rfl rfl

/-- A request changes the count of the connection, and nothing else of it. -/
theorem send_grip (header : Header) (data : Fields) (stamp : Bool) (l : Listener) :
    (l.send header data stamp).2.grip = l.grip ∧ (l.send header data stamp).2.tokens = l.tokens := by
  unfold send
  split
  · exact ⟨rfl, rfl⟩
  · cases hc : l.connection with
    | none => exact ⟨rfl, rfl⟩
    | some c =>
      obtain ⟨data', n, hn⟩ := exists_stamped data c stamp
      simp only [hn, grip_of_connection hc]
      cases l.links[c.link]? with
      | none => exact ⟨rfl, rfl⟩
      | some t =>
        simp only
        rcases t.write .binary (frame header data').encode with ⟨_ | _, t'⟩ <;> exact ⟨rfl, rfl⟩

/-- Other moves at most cancel a token that a caller brings. -/
theorem grip_outside {m : Move} (h : l.step world m = some k) (hm : ∀ n c, m ≠ .work n c) :
    k.grip = l.grip ∧ (k.tokens = l.tokens ∨ ∃ t, m = .cancel t ∧ k.tokens = l.tokens.cancel t) := by
  cases m with
  | work n c => exact absurd rfl (hm n c)
  | reader | writer =>
    simp only [step, Option.bind_eq_bind, Option.bind_eq_some_iff, Option.some.injEq] at h
    obtain ⟨t, -, t', -, rfl⟩ := h
    exact ⟨rfl, .inl rfl⟩
  | cancel token =>
    cases Option.some.inj h
    exact ⟨rfl, .inr ⟨token, rfl, rfl⟩⟩
  | send header data stamp =>
    cases Option.some.inj h
    obtain ⟨hgrip, htokens⟩ := send_grip header data stamp l
    exact ⟨hgrip, .inl htokens⟩
  | start | stop | peerSend | peerVanish | fault | wait =>
    cases Option.some.inj h
    exact ⟨rfl, .inl rfl⟩

/-- A task that leads no chain leaves the connection that is held alone. -/
theorem WorkStep.grip_of_idle (h : WorkStep world l w w' k) (hw : w.isActive = false) : k.grip = l.grip := by
  cases h.turnover with
  | same hgrip | cancel _ hgrip => exact hgrip
  | install hadrift =>
    rw [Work.isActive_of_isAdrift hadrift] at hw
    cases hw
  | drop hactive =>
    rw [hactive] at hw
    cases hw
  | rekey hhandling =>
    subst hhandling
    cases hw

/-! Where no chain has a connection. -/

/-- What lives by the connection that is held is cancelled. -/
def Loose (l : Listener) : Prop := ∀ t, l.heldToken? = some t → l.isCancelled t

theorem Loose.keeps (h : Loose l) (hheld : k.heldToken? = l.heldToken?) (hkeeps : Keeps l k) : Loose k :=
  fun t ht => hkeeps.cancelled t (h t (hheld ▸ ht))

theorem Loose.of_none (h : k.heldToken? = none) : Loose k := fun _ ht => nomatch h.symm.trans ht

/-- How a task comes to lead a chain that has no connection, or the listener to have no chain: that was so before; or no
connection is held any more; or a dial has found its token cancelled. -/
inductive Strands (l : Listener) (w : Work) (k : Listener) : Prop
  | before : w.isAdrift ∨ l.phase.isOpen = false → k.heldToken? = l.heldToken? → Strands l w k
  | bare : k.heldToken? = none → Strands l w k
  | cut {t : Token} : w.isActive → w.token? = some t → l.isCancelled t → k.heldToken? = l.heldToken? → Strands l w k

theorem DialingStep.strands {d d' : Dialing} (h : DialingStep world parent l d d' k) (hactive : w.isActive)
    (hadrift : w.isAdrift = d.isAdrift) (htoken : w.token? = some parent)
    (hd' : d'.isAdrift ∨ k.phase.isOpen = false) : Strands l w k := by
  cases h with
  | nowhere | noUrl | refused | dial | opened | abandoned => exact .before (.inl hadrift) rfl
  | install =>
    unfold Listener.install at hd' ⊢
    split
    · exact .before (.inl hadrift) rfl
    · next hlive =>
      rw [if_neg hlive] at hd'
      rcases hd' with hd' | hd' <;> cases hd'
  | abandon hc => exact .cut hactive htoken hc rfl
  | keep => exact .before (.inr (hd'.resolve_left Bool.noConfusion)) rfl
  | announce => exact .before (.inr (hd'.resolve_left Bool.noConfusion)) rfl
  | close hclosing =>
    obtain ⟨t, rfl⟩ := exists_setLink_of_stepClosing hclosing
    exact .before (.inl hadrift) rfl

theorem drop_heldToken? (l : Listener) : l.drop.heldToken? = none := by
  rw [heldToken?, drop_connection, Option.map_none]

theorem rekey_heldToken? {key : CipherKey} {c : Connection} (h : l.connection = some c) :
    (l.rekey key c).2.heldToken? = l.heldToken? := by
  unfold rekey heldToken?
  cases c.keepalive <;> by_cases hp : l.session.settings.pingInterval = 0 <;> simp [Listener.cancel, hp, h]

theorem handle_heldToken? (link : Nat) (b : Bytes) (l : Listener) :
    (l.handle link b).2.heldToken? = l.heldToken? := by
  unfold handle
  cases Reaction.ofBytes b with
  | rekey key =>
    cases hc : l.connection with
    | none => rfl
    | some c => exact rekey_heldToken? hc
  | _ => rfl

theorem ChainStep.strands {chain chain' : Chain} (h : ChainStep world parent l chain chain' k)
    (hchain' : chain'.isAdrift ∨ k.phase.isOpen = false) : Strands l (.chain parent chain) k := by
  -- Where the task goes on with its connection, or leads no chain, only the phase can say so.
  have hphase (hk : k.phase = l.phase) (hheld : k.heldToken? = l.heldToken?) (hnot : chain'.isAdrift = false) :
      Strands l (.chain parent chain) k := by
    rw [hnot, hk, or_iff_right Bool.false_ne_true] at hchain'
    exact .before (.inr hchain') hheld
  cases h with
  | heed | look | take | noMessages | takeError | noErrors | closed | notClosed | wake | publish | beginPing | published
  | yielded | stopped | confirmed | unconfirmed | dialed | farewell | closeStreams | finish => exact hphase rfl rfl rfl
  | @handle link b _ _ hhandle =>
    have hrests := Rests.handle link b l
    have hheld := handle_heldToken? link b l
    rw [hhandle] at hrests hheld
    refine hphase hrests.phase hheld ?_
    rcases handle_stage hhandle with rfl | rfl | ⟨es, ping, rfl⟩ <;> rfl
  | yield hclosing | stop hclosing =>
    obtain ⟨t, rfl⟩ := exists_setLink_of_stepClosing hclosing
    exact hphase rfl rfl rfl
  | drop => exact .bare (drop_heldToken? l)
  | dial hd => exact hd.strands rfl rfl rfl hchain'
  | dialCancelled | dialFailed | announce | leave | spent | stay | rotate | exhaust | exhausted | giveUp | redial
  | complain | enter => exact .before (.inl rfl) rfl

theorem WorkStep.strands (h : WorkStep world l w w' k) (hw' : w'.isAdrift ∨ k.phase.isOpen = false) :
    Strands l w k := by
  have hphase (hk : k.phase = l.phase) (hheld : k.heldToken? = l.heldToken?) (hnot : w'.isAdrift = false) :
      Strands l w k := by
    rw [hnot, hk, or_iff_right Bool.false_ne_true] at hw'
    exact .before (.inr hw') hheld
  cases h with
  | start hs =>
    cases hs with
    | late | check | refuse | dialed | spawn => exact hphase rfl rfl rfl
    | claim hidle => exact .before (.inr (Phase.isOpen_eq_false_iff.2 hidle)) rfl
    | reopenTracker | reopenStreams | dialFailed | fail => exact .before (.inl rfl) rfl
    | dial hd => exact hd.strands rfl rfl rfl hw'
  | stop hs =>
    cases hs with
    | close hclosing =>
      obtain ⟨t, rfl⟩ := exists_setLink_of_stepClosing hclosing
      exact hphase rfl rfl rfl
    | _ => exact hphase rfl rfl rfl
  | chain hs => exact hs.strands hw'
  | keepalive hs => cases hs <;> exact hphase rfl rfl rfl

/-! Where a chain has one. -/

/-- The connection that is held lives by the last chain. -/
def Attached (l : Listener) : Prop := ∀ t, l.heldToken? = some t → ∃ p n, l.parent = some p ∧ t.path = p.path ++ [n]

theorem Attached.same (h : Attached l) (hheld : k.heldToken? = l.heldToken?) (hparent : k.parent = l.parent) :
    Attached k := fun t ht => hparent ▸ h t (hheld ▸ ht)

/-- A chain that comes to have a connection has got it from a dial, unless it is cancelled. -/
theorem DialingStep.anchors {d d' : Dialing} (h : DialingStep world parent l d d' k) (hadrift : d.isAdrift)
    (hd' : d'.isAdrift = false) :
    l.isCancelled parent ∨ k.parent = l.parent ∧ k.heldToken? = some (l.tokens.child parent).1 := by
  cases h with
  | install =>
    unfold Listener.install
    split
    · next hc => exact .inl hc
    · exact .inr ⟨rfl, rfl⟩
  | keep | announce => cases hadrift
  | nowhere | noUrl | dial | refused | opened | abandon | abandoned | close => cases hd'

theorem WorkStep.anchors (h : WorkStep world l w w' k) (hadrift : w.isAdrift) (hactive' : w'.isActive)
    (hw' : w'.isAdrift = false) : ∃ p, w.token? = some p ∧
      (l.isCancelled p ∨ k.parent = l.parent ∧ k.heldToken? = some (l.tokens.child p).1) := by
  cases h with
  | start hs =>
    cases hs with
    | dial hd => exact ⟨_, rfl, hd.anchors hadrift hw'⟩
    | dialed => cases hadrift
    | fail => cases hactive'
    | reopenTracker | reopenStreams | dialFailed => cases hw'
    | _ => cases hadrift
  | chain hs =>
    cases hs with
    | dial hd => exact ⟨_, rfl, hd.anchors hadrift hw'⟩
    | dialed => cases hadrift
    | enter => cases hactive'
    | announce | leave | spent | stay | rotate | exhaust | exhausted | giveUp | redial | dialCancelled | dialFailed
    | complain => cases hw'
    | _ => cases hadrift
  | stop | keepalive => cases hadrift

/-- How the token of the connection that is held stands to that of the last chain. -/
structure Sheltered (l : Listener) : Prop where
  below : Loose l ∨ Attached l
  adrift : ∀ w ∈ l.work, w.isAdrift → Loose l
  shut : l.phase.isOpen = false → Loose l
  attached : ∀ w ∈ l.work, w.isActive → w.isAdrift = false → l.parent.all l.isCancelled = false → Attached l

namespace Sheltered

theorem create (session : Session) : Sheltered (create session) where
  below := .inl (.of_none rfl)
  adrift _ h := absurd h List.not_mem_nil
  shut _ := .of_none rfl
  attached _ h := absurd h List.not_mem_nil

/-- Once the token of the last chain is cancelled, nothing lives by the connection that is held. -/
theorem loose_of_cancelled (h : Sheltered l) {p : Token} (hp : l.parent = some p) (hcancelled : l.isCancelled p) :
    Loose l := by
  rcases h.below with hloose | hattached
  · exact hloose
  · intro t ht
    obtain ⟨q, n, hq, hpath⟩ := hattached t ht
    obtain rfl := Option.some.inj (hp.symm.trans hq)
    exact Cancellation.isCancelled_of_prefix hcancelled (hpath ▸ List.prefix_append ..)

theorem loose_of_strands (h : Sheltered l) (hparented : Parented l) (hw : w ∈ l.work) (hkeeps : Keeps l k)
    (hs : Strands l w k) : Loose k := by
  cases hs with
  | before hprior hheld =>
    rcases hprior with hadrift | hclosed
    · exact (h.adrift w hw hadrift).keeps hheld hkeeps
    · exact (h.shut hclosed).keeps hheld hkeeps
  | bare hnone => exact .of_none hnone
  | cut hactive htoken hcancelled hheld =>
    have hp := (hparented w hw hactive).symm.trans htoken
    exact (h.loose_of_cancelled hp hcancelled).keeps hheld hkeeps

/-- As long as some task leads a chain, the token of the last chain stays. -/
theorem parent_of_active {i : Nat} {v : Work} (hled : Led K l) (hi : l.work[i]? = some v) (hv : v.isActive)
    (hstep : WorkStep world l w w' k) : k.parent = l.parent := by
  rcases hstep.parent with ⟨hparent, -⟩ | ⟨hclosed, -⟩
  · exact hparent
  · rw [(hled.place hi hv).1] at hclosed
    cases hclosed

theorem live_of_keeps (hparent : k.parent = l.parent) (hkeeps : Keeps l k)
    (hlive : k.parent.all k.isCancelled = false) : l.parent.all l.isCancelled = false := by
  rw [hparent] at hlive
  cases hp : l.parent with
  | none =>
    rw [hp] at hlive
    cases hlive
  | some p =>
    rw [hp, Option.all_some] at hlive
    rw [Option.all_some]
    by_contra hcancelled
    rw [hkeeps.cancelled p (by simpa using hcancelled)] at hlive
    cases hlive

/-- The connection that was held is so no more, or it is still there, or a dial has a new one held, which lives by its
own chain. -/
theorem below_step {n : Nat} (h : Sheltered l) (hled : Led K l) (hparented : Parented l) (hn : l.work[n]? = some w)
    (hstep : WorkStep world l w w' k) : Loose k ∨ Attached k := by
  have hkept (hheld : k.heldToken? = l.heldToken?) : Loose k ∨ Attached k := by
    rcases hstep.parent with ⟨hparent, -⟩ | ⟨hclosed, -⟩
    · exact h.below.imp (·.keeps hheld hstep.keeps) (·.same hheld hparent)
    · exact .inl ((h.shut hclosed).keeps hheld hstep.keeps)
  cases hstep.turnover with
  | same hgrip | cancel _ hgrip => exact hkept (heldToken?_of_grip hgrip)
  | install hadrift htoken hconnection =>
    have hactive := Work.isActive_of_isAdrift hadrift
    have hp := (hparented w (List.mem_of_getElem? hn) hactive).symm.trans htoken
    refine .inr fun t ht => ?_
    rw [heldToken?, hconnection] at ht
    cases ht
    exact ⟨_, _, (parent_of_active hled hn hactive hstep).trans hp, rfl⟩
  | drop _ _ _ hnone => exact .inl (.of_none (by rw [heldToken?, hnone, Option.map_none]))
  | rekey _ _ hc _ hk =>
    subst hk
    exact hkept (rekey_heldToken? hc)

/-- A task that leads a chain with a connection has it from before, or from a dial. -/
theorem attached_step {n : Nat} (h : Sheltered l) (hled : Led K l) (hparented : Parented l) (hn : l.work[n]? = some w)
    (hstep : WorkStep world l w w' k) (hactive' : w'.isActive) (hw' : w'.isAdrift = false)
    (hlive : k.parent.all k.isCancelled = false) : Attached k := by
  have hw := List.mem_of_getElem? hn
  have hactive : w.isActive := by
    by_contra hidle
    obtain ⟨-, -, token, retryOnClose, rfl⟩ := hstep.claims (by simpa using hidle) hactive'
    cases hstep with
    | start hs =>
      cases hs with
      | claim => cases hw'
      | refuse => cases hactive'
  have hparent := parent_of_active hled hn hactive hstep
  cases hadrift : w.isAdrift with
  | true =>
    obtain ⟨p, htoken, hcancelled | ⟨-, hheld⟩⟩ := hstep.anchors hadrift hactive' hw'
    · rw [hparent, ← hparented w hw hactive, htoken, Option.all_some, hstep.keeps.cancelled p hcancelled] at hlive
      cases hlive
    · intro t ht
      obtain rfl := Option.some.inj (hheld.symm.trans ht)
      exact ⟨p, _, hparent.trans ((hparented w hw hactive).symm.trans htoken), rfl⟩
  | false =>
    have hattached := h.attached w hw hactive hadrift (live_of_keeps hparent hstep.keeps hlive)
    cases hstep.turnover with
    | same hgrip | cancel _ hgrip => exact hattached.same (heldToken?_of_grip hgrip) hparent
    | install hinstall =>
      rw [hinstall] at hadrift
      cases hadrift
    | drop _ hdrop =>
      rw [hdrop] at hw'
      cases hw'
    | rekey _ _ hc _ hk =>
      subst hk
      exact hattached.same (rekey_heldToken? hc) hparent

theorem step {n : Nat} (h : Sheltered l) (hled : Led K l) (hparented : Parented l) (hn : l.work[n]? = some w)
    (hstep : WorkStep world l w w' k) : Sheltered (k.setTask n w') := by
  have hw := List.mem_of_getElem? hn
  -- A chain is handed over by a task that has a connection.
  obtain ⟨vs, hvs, hspawned⟩ : ∃ vs, k.work = l.work ++ vs ∧ ∀ v ∈ vs, v.isAdrift = false ∧
      (v.isActive → ∃ token retryOnClose link, w = .start token retryOnClose (.spawning link)) :=
    hstep.exists_spawned_of (fun _ _ => ⟨rfl, Bool.noConfusion⟩) fun _ _ _ heq => ⟨rfl, fun _ => ⟨_, _, _, heq⟩⟩
  have hbelow := h.below_step hled hparented hn hstep
  have hshut (hk : w'.isAdrift ∨ k.phase.isOpen = false) : Loose k :=
    h.loose_of_strands hparented hw hstep.keeps (hstep.strands hk)
  have hown (hactive : w'.isActive) (hadrift : w'.isAdrift = false) (hlive : k.parent.all k.isCancelled = false) :
      Attached k := h.attached_step hled hparented hn hstep hactive hadrift hlive
  -- The others leave the connection alone as long as one leads the chain.
  have hheld {i : Nat} {v : Work} (hi : l.work[i]? = some v) (hne : i ≠ n) (hv : v.isActive) :
      k.heldToken? = l.heldToken? :=
    heldToken?_of_grip (hstep.grip_of_idle (hled.idle_of_ne hi hv (Ne.symm hne) hn))
  have hloose {i : Nat} {v : Work} (hi : l.work[i]? = some v) (hne : i ≠ n) (hadrift : v.isAdrift) : Loose k :=
    (h.adrift v (List.mem_of_getElem? hi) hadrift).keeps (hheld hi hne (Work.isActive_of_isAdrift hadrift)) hstep.keeps
  refine ⟨hbelow, fun v hv hadrift => ?_, fun hclosed => hshut (.inr hclosed), fun v hv hactive hadrift hlive => ?_⟩
  · obtain ⟨i, hi⟩ := List.getElem?_of_mem hv
    rcases getElem?_setTask hvs hi with ⟨rfl, rfl⟩ | ⟨hne, hi⟩ | ⟨-, hi⟩
    · exact hshut (.inl hadrift)
    · exact hloose hi hne hadrift
    · rw [(hspawned v (List.mem_of_getElem? hi)).1] at hadrift
      cases hadrift
  · obtain ⟨i, hi⟩ := List.getElem?_of_mem hv
    rcases getElem?_setTask hvs hi with ⟨rfl, rfl⟩ | ⟨hne, hi⟩ | ⟨-, hi⟩
    · exact hown hactive hadrift hlive
    · have hparent := parent_of_active hled hi hactive hstep
      have hattached := h.attached v (List.mem_of_getElem? hi) hactive hadrift (live_of_keeps hparent hstep.keeps hlive)
      exact hattached.same (hheld hi hne hactive) hparent
    · obtain ⟨token, retryOnClose, link, rfl⟩ := (hspawned v (List.mem_of_getElem? hi)).2 hactive
      rcases hstep.work_cases with ⟨hnot, -⟩ | ⟨_, _, _, -, -, rfl⟩
      · cases hnot
      · exact (h.attached _ hw rfl rfl hlive).same rfl rfl

/-- What is no step of a task leaves the connection and the last chain alone. -/
theorem outside {m : Move} (h : Sheltered l) (hstep : l.step world m = some k) (hm : ∀ n c, m ≠ .work n c) :
    Sheltered k := by
  obtain ⟨hkeeps, -, vs, hvs, hfresh⟩ := step_outside hstep hm
  have hstill := step_still hstep hm
  have hheld := heldToken?_of_grip (grip_outside hstep hm).1
  have hidle {v : Work} (hv : v ∈ vs) : v.isActive = false := Work.isActive_of_isFresh (hfresh v hv)
  refine ⟨h.below.imp (·.keeps hheld hkeeps) (·.same hheld hstill.parent), ?_, ?_, ?_⟩
  · refine forall_mem_append hvs (fun v hv hadrift => (h.adrift v hv hadrift).keeps hheld hkeeps) ?_
    intro v hv hadrift
    exact absurd (Work.isActive_of_isAdrift hadrift) (by simp [hidle hv])
  · intro hclosed
    rw [hstill.phase] at hclosed
    exact (h.shut hclosed).keeps hheld hkeeps
  · refine forall_mem_append hvs (fun v hv hactive hadrift hlive => ?_) ?_
    · exact (h.attached v hv hactive hadrift (live_of_keeps hstill.parent hkeeps hlive)).same hheld hstill.parent
    · intro v hv hactive
      exact absurd hactive (by simp [hidle hv])

end Sheltered

theorem Noted.sheltered (h : Noted world session log l) : Sheltered l := by
  induction h with
  | start => exact .create session
  | @step log l k m hprev hstep ih =>
    rcases exists_work_or m with ⟨n, c, rfl⟩ | hm
    · obtain ⟨w, w', k', hn, hwork, rfl⟩ := step_work hstep
      obtain ⟨K, hled⟩ := hprev.based.led
      exact ih.step hled hprev.parented hn hwork
    · exact ih.outside hstep hm

end ChatWire.Listener
