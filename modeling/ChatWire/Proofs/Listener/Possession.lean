import ChatWire.Proofs.Listener.Exclusion

/-! Who has a connection. None is held unless the phase is connected, as long as no token is cancelled between the
two looks that a dial takes at it: such a cancellation leaves a connection held that has been given up, in whichever
phase comes next. -/

namespace ChatWire.Listener

/-- The token of a task that has just offered its connection to be held. -/
def Work.offered? : Work → Option Token
  | .start token _ (.dialing (.installed ..)) => some token
  | .chain parent (.dialing _ (.installed ..)) => some parent
  | _ => none

/-- Whether a token is cancelled, from `l` to `k`, between the two looks that a dial takes at it. -/
def cutsIn (l k : Listener) : Bool :=
  l.work.any fun w => w.offered?.any fun token => !l.isCancelled token && k.isCancelled token

/-- Such a cancellation happens only if `cut`. -/
def Careful (cut : Prop) (l k : Listener) : Prop := cutsIn l k → cut

variable {world : Surroundings} {session : Session} {cut : Prop} {parent : Token} {l k : Listener}

theorem Careful.of_offered (h : Careful cut l k) {w : Work} {token : Token} (hw : w ∈ l.work)
    (hoffered : w.offered? = some token) (hlive : l.isCancelled token = false) (hcancelled : k.isCancelled token) :
    cut := by
  apply h
  rw [cutsIn, List.any_eq_true]
  exact ⟨w, hw, by simp [hoffered, hlive, hcancelled]⟩

theorem careful_of_not_cutsIn (h : !cutsIn l k) : Careful False l k := by
  intro hcut
  rw [hcut] at h
  cases h

/-! The connection that is held. -/

/-- the link of the connection that is held -/
def heldLink? (l : Listener) : Option Nat := l.connection.map Connection.link

theorem heldLink?_eq (l : Listener) : l.heldLink? = l.held.map Prod.fst := by
  rw [heldLink?, held, Option.map_map]
  rfl

theorem heldLink?_of_held (h : k.held = l.held) : k.heldLink? = l.heldLink? := by
  rw [heldLink?_eq, heldLink?_eq, h]

theorem rekey_heldLink? {key : CipherKey} {c : Connection} (h : l.connection = some c) :
    (l.rekey key c).2.heldLink? = l.heldLink? := by
  unfold rekey heldLink?
  cases c.keepalive <;> by_cases hp : l.session.settings.pingInterval = 0 <;> simp [cancel, hp, h]

theorem handle_heldLink? (link : Nat) (b : Bytes) (l : Listener) : (l.handle link b).2.heldLink? = l.heldLink? := by
  unfold handle
  cases Reaction.ofBytes b with
  | rekey key =>
    cases hc : l.connection with
    | none => rfl
    | some c => exact rekey_heldLink? hc
  | _ => rfl

/-- No connection is held, unless there was a cancellation between two looks; the one held then is `spare?`, or it has
been reported closed. -/
def Free (cut : Prop) (spare? : Option Nat) (l : Listener) : Prop :=
  ∀ ⦃link⦄, l.heldLink? = some link → cut ∧ (spare? = some link ∨ (l.closure? link).isSome)

namespace Free

variable {spare? : Option Nat}

theorem keeps (h : Free cut spare? l) (hheld : k.heldLink? = l.heldLink?) (hkeeps : Keeps l k) :
    Free cut spare? k := by
  intro link hlink
  rw [hheld] at hlink
  obtain ⟨hcut, hspare | hclosed⟩ := h hlink
  · exact ⟨hcut, .inl hspare⟩
  · obtain ⟨info, hinfo⟩ := Option.isSome_iff_exists.1 hclosed
    exact ⟨hcut, .inr (Option.isSome_iff_exists.2 ⟨info, hkeeps.closure hinfo⟩)⟩

/-- What concerns neither the connections nor the tokens does not matter. -/
theorem same (h : Free cut spare? l) (hconnection : k.connection = l.connection) (hlinks : k.links = l.links) :
    Free cut spare? k := by
  intro link hlink
  rw [heldLink?, hconnection] at hlink
  rw [closure?, hlinks]
  exact h hlink

theorem spare (h : Free cut none l) (spare? : Option Nat) : Free cut spare? l := by
  intro link hlink
  obtain ⟨hcut, hnone | hclosed⟩ := h hlink
  · cases hnone
  · exact ⟨hcut, .inr hclosed⟩

/-- A connection that is to be spared until it is reported closed is so no more. -/
theorem reported {link : Nat} (h : Free cut (some link) l) (hclosed : (l.closure? link).isSome) : Free cut none l := by
  intro on hon
  obtain ⟨hcut, heq | hclosed'⟩ := h hon
  · cases heq
    exact ⟨hcut, .inr hclosed⟩
  · exact ⟨hcut, .inr hclosed'⟩

theorem of_none (h : l.heldLink? = none) : Free cut spare? l := by
  intro link hlink
  rw [h] at hlink
  cases hlink

end Free

/-! What the place of a task says of it. -/

/-- While a dial is under way no connection is held; one that is given up after it was offered may be. -/
def Dialing.Frees (cut : Prop) (parent : Token) (l : Listener) : Dialing → Prop
  | .select | .waiting .. | .opened .. | .finished (.error _) => Free cut none l
  | .installed link _ => l.isCancelled parent → Free cut (some link) l
  | .abandoning link stage => Free cut (if stage.hasReported then none else some link) l
  | .announcing .. | .finished (.ok _) => True

def Chain.Frees (cut : Prop) (parent : Token) (l : Listener) : Chain → Prop
  | .announcing _ | .deciding _ | .exhausted .. | .sleeping .. | .complaining _ | .finishing _ .enter => Free cut none l
  | .dialing _ d => d.Frees cut parent l
  | _ => True

def Starting.Frees (cut : Prop) (token : Token) (l : Listener) : Starting → Prop
  | .reopenTracker | .reopenStreams | .failing _ => Free cut none l
  | .dialing d => d.Frees cut token l
  | _ => True

def Work.Frees (cut : Prop) (l : Listener) : Work → Prop
  | .start token _ stage => stage.Frees cut token l
  | .chain parent stage => stage.Frees cut parent l
  | _ => True

/-- A phase other than connected says that no connection is held. -/
def Vacant (cut : Prop) (l : Listener) : Prop := l.phase ≠ .connected → Free cut none l

theorem Vacant.keeps (h : Vacant cut l) (hphase : k.phase = l.phase) (hheld : k.heldLink? = l.heldLink?)
    (hkeeps : Keeps l k) : Vacant cut k := fun hne => (h (hphase ▸ hne)).keeps hheld hkeeps

theorem install_frees {link : Nat} {endpoint : String} (hfree : Free cut none l) (hvacant : Vacant cut l) :
    (Dialing.installed link endpoint).Frees cut parent (l.install parent link) ∧
      Vacant cut (l.install parent link) := by
  unfold install
  split
  · exact ⟨fun _ => hfree.spare _, hvacant⟩
  · next hlive => exact ⟨fun hcancelled => absurd hcancelled hlive, fun hne => absurd rfl hne⟩

theorem close_frees {link : Nat} {info : CloseInfo} {stage stage' : Transport.Closing}
    (h : l.stepClosing link info stage = some (stage', k)) (hfree : (Dialing.abandoning link stage).Frees cut parent l) :
    (Dialing.abandoning link stage').Frees cut parent k := by
  have hkeeps := Keeps.stepClosing h
  have hheld := heldLink?_of_held (Quiet.stepClosing h).held
  have hreported := hasReported_stepClosing h
  have hfree' := hfree.keeps hheld hkeeps
  rw [Dialing.Frees, hreported]
  cases stage with
  | report => exact hfree'.reported (by rw [closure?_report h]; rfl)
  | _ => exact hfree'

theorem DialingStep.frees {d d' : Dialing} (h : DialingStep world parent l d d' k) (hd : d.Frees cut parent l)
    (hvacant : Vacant cut l) : d'.Frees cut parent k ∧ Vacant cut k := by
  cases h with
  | nowhere | noUrl | refused => exact ⟨hd, hvacant⟩
  | dial => exact ⟨Free.keeps hd rfl (.same rfl rfl rfl), hvacant.keeps rfl rfl (.same rfl rfl rfl)⟩
  | opened => exact ⟨Free.keeps hd rfl (.append ..), hvacant.keeps rfl rfl (.append ..)⟩
  | install => exact install_frees hd hvacant
  | abandon hc => exact ⟨hd hc, hvacant⟩
  | keep => exact ⟨trivial, hvacant⟩
  | announce => exact ⟨trivial, hvacant.keeps rfl rfl (.same rfl rfl rfl)⟩
  | abandoned => exact ⟨Free.keeps hd rfl (.stopListening ..), hvacant.keeps rfl rfl (.stopListening ..)⟩
  | close hclosing =>
    have hquiet := Quiet.stepClosing hclosing
    exact ⟨close_frees hclosing hd, hvacant.keeps hquiet.phase (heldLink?_of_held hquiet.held) (.stepClosing hclosing)⟩

theorem drop_heldLink? (l : Listener) : l.drop.heldLink? = none := by
  unfold drop
  cases hc : l.connection with
  | none => simp [heldLink?]
  | some c => rfl

theorem ChainStep.frees {chain chain' : Chain} (h : ChainStep world parent l chain chain' k)
    (hchain : chain.Frees cut parent l) (hvacant : Vacant cut l) : chain'.Frees cut parent k ∧ Vacant cut k := by
  have hkept (hphase : k.phase = l.phase) (hheld : k.heldLink? = l.heldLink?) : Vacant cut k :=
    hvacant.keeps hphase hheld h.keeps
  cases h with
  | heed | look | noMessages | noErrors | notClosed | wake | published | yielded | stopped | dialed =>
    exact ⟨trivial, hvacant⟩
  | take | takeError | closed | confirmed | unconfirmed | publish | beginPing | farewell | closeStreams | finish =>
    exact ⟨trivial, hkept rfl rfl⟩
  | leave | giveUp | redial | dialCancelled | dialFailed => exact ⟨hchain, hvacant⟩
  | @handle link b _ _ hhandle =>
    have hrests := Rests.handle link b l
    have hheld := handle_heldLink? link b l
    rw [hhandle] at hrests hheld
    refine ⟨?_, hkept hrests.phase hheld⟩
    rcases handle_stage hhandle with rfl | rfl | ⟨es, ping, rfl⟩ <;> trivial
  | yield hclosing | stop hclosing =>
    have hquiet := Quiet.stepClosing hclosing
    exact ⟨trivial, hkept hquiet.phase (heldLink?_of_held hquiet.held)⟩
  | drop => exact ⟨.of_none (drop_heldLink? l), fun _ => .of_none (drop_heldLink? l)⟩
  | announce | spent | exhaust | exhausted | complain =>
    exact ⟨Free.keeps hchain rfl (.same rfl rfl rfl), hkept rfl rfl⟩
  | stay | rotate =>
    have hfree : Free cut none _ := Free.keeps hchain rfl (.same rfl rfl rfl)
    exact ⟨hfree, fun _ => hfree⟩
  | dial hd => exact hd.frees hchain hvacant
  | enter => exact ⟨trivial, fun _ => Free.keeps hchain rfl (.same rfl rfl rfl)⟩

theorem StartStep.frees {token : Token} {retryOnClose : Bool} {stage stage' : Starting}
    (h : StartStep world token retryOnClose l stage stage' k) (hstage : stage.Frees cut token l)
    (hvacant : Vacant cut l) : stage'.Frees cut token k ∧ Vacant cut k := by
  cases h with
  | late | check | refuse | dialed => exact ⟨trivial, hvacant⟩
  | claim hphase =>
    have hfree : Free cut none l := by
      apply hvacant
      rcases hphase with h | h <;> rw [h] <;> exact nofun
    exact ⟨hfree.keeps rfl (.same rfl rfl rfl), fun _ => hfree.keeps rfl (.same rfl rfl rfl)⟩
  | reopenTracker | reopenStreams =>
    exact ⟨Free.keeps hstage rfl (.same rfl rfl rfl), hvacant.keeps rfl rfl (.same rfl rfl rfl)⟩
  | dial hd => exact hd.frees hstage hvacant
  | dialFailed => exact ⟨hstage, hvacant⟩
  | fail => exact ⟨trivial, fun _ => Free.keeps hstage rfl (.same rfl rfl rfl)⟩
  | spawn => exact ⟨trivial, hvacant.keeps rfl rfl (.same rfl rfl rfl)⟩

theorem WorkStep.frees {w w' : Work} (h : WorkStep world l w w' k) (hw : w.Frees cut l) (hvacant : Vacant cut l) :
    w'.Frees cut k ∧ Vacant cut k := by
  cases h with
  | start hs => exact hs.frees hw hvacant
  | stop hs => exact ⟨trivial, hvacant.keeps hs.quiet.phase (heldLink?_of_held hs.quiet.held) hs.keeps⟩
  | chain hs => exact hs.frees hw hvacant
  | keepalive hs => exact ⟨trivial, hvacant.keeps hs.quiet.phase (heldLink?_of_held hs.quiet.held) hs.keeps⟩

theorem Work.frees_of_idle {w : Work} (h : w.isActive = false) : w.Frees cut l := by
  cases w with
  | start token retryOnClose stage =>
    cases stage with
    | check | claim | finished => trivial
    | _ => cases h
  | chain parent stage =>
    cases stage with
    | finishing info stage =>
      cases stage with
      | enter => cases h
      | _ => trivial
    | done => trivial
    | _ => cases h
  | stop | keepalive => trivial

/-! What goes on apart from a dial. A connection that it has just offered is the one that is held. -/

theorem Dialing.Frees.apart {K : Nat → Option CipherKey} {d : Dialing} (h : d.Frees cut parent l) (hkeeps : Keeps l k)
    (hheld : k.held = l.held) (hspot : (d.spot parent).Holds K l)
    (hcut : ∀ link endpoint, d = .installed link endpoint → l.isCancelled parent = false → k.isCancelled parent → cut) :
    d.Frees cut parent k := by
  have hlink := heldLink?_of_held hheld
  cases d with
  | installed link endpoint =>
    intro hcancelled
    cases hlive : l.isCancelled parent with
    | true => exact (h hlive).keeps hlink hkeeps
    | false =>
      have hoffered : l.held = some (link, none) := hspot.2.2.resolve_left (by simp [hlive])
      intro on hon
      rw [hlink, heldLink?_eq, hoffered] at hon
      exact ⟨hcut link endpoint rfl hlive hcancelled, .inl hon⟩
  | finished r =>
    cases r with
    | ok => trivial
    | error => exact Free.keeps h hlink hkeeps
  | announcing => trivial
  | _ => exact Free.keeps h hlink hkeeps

theorem Work.Frees.apart {K : Nat → Option CipherKey} {w : Work} (h : w.Frees cut l) (hkeeps : Keeps l k)
    (hheld : k.held = l.held) (hspot : w.spot.Holds K l)
    (hcut : ∀ {token}, w.offered? = some token → l.isCancelled token = false → k.isCancelled token → cut) :
    w.Frees cut k := by
  have hlink := heldLink?_of_held hheld
  cases w with
  | start token retryOnClose stage =>
    cases stage with
    | dialing d =>
      refine Dialing.Frees.apart h hkeeps hheld hspot ?_
      rintro link endpoint rfl
      exact hcut rfl
    | reopenTracker | reopenStreams | failing => exact Free.keeps h hlink hkeeps
    | _ => trivial
  | chain parent stage =>
    cases stage with
    | dialing info d =>
      refine Dialing.Frees.apart h hkeeps hheld hspot ?_
      rintro link endpoint rfl
      exact hcut rfl
    | finishing info stage =>
      cases stage with
      | enter => exact Free.keeps h hlink hkeeps
      | _ => trivial
    | announcing | deciding | exhausted | sleeping | complaining => exact Free.keeps h hlink hkeeps
    | _ => trivial
  | stop | keepalive => trivial

/-- What the phase and the places of all tasks say of the connection that is held. -/
structure Possession (cut : Prop) (l : Listener) : Prop where
  vacant : Vacant cut l
  frees : ∀ w ∈ l.work, w.Frees cut l

namespace Possession

variable {K : Nat → Option CipherKey}

/-- A task that leads a chain is spared by what the others do. -/
theorem frees_apart {i : Nat} {v : Work} (h : Possession cut l) (hled : Led K l) (hcareful : Careful cut l k)
    (hi : l.work[i]? = some v) (hkeeps : Keeps l k) (hheld : v.isActive → k.held = l.held) : v.Frees cut k := by
  have hmem := List.mem_of_getElem? hi
  cases hv : v.isActive with
  | false => exact Work.frees_of_idle hv
  | true => exact (h.frees v hmem).apart hkeeps (hheld hv) (hled.place hi hv).2 (hcareful.of_offered hmem)

theorem step {n : Nat} {w w' : Work} (h : Possession cut l) (hled : Led K l)
    (hcareful : Careful cut l (k.setTask n w')) (hn : l.work[n]? = some w) (hstep : WorkStep world l w w' k) :
    Possession cut (k.setTask n w') := by
  obtain ⟨hw', hvacant⟩ := hstep.frees (h.frees w (List.mem_of_getElem? hn)) h.vacant
  -- A task that has just been started has no connection to give up.
  obtain ⟨vs, hvs, hspawned⟩ : ∃ vs, k.work = l.work ++ vs ∧ ∀ v ∈ vs, v.Frees cut (k.setTask n w') :=
    hstep.exists_spawned_of (fun _ _ => trivial) fun _ _ _ _ => trivial
  refine ⟨hvacant, ?_⟩
  intro v hv
  obtain ⟨i, hi⟩ := List.getElem?_of_mem hv
  rcases getElem?_setTask hvs hi with ⟨rfl, rfl⟩ | ⟨hne, hi⟩ | ⟨-, hi⟩
  · exact hw'
  · refine h.frees_apart hled hcareful hi (hstep.keeps.trans (.setTask ..)) ?_
    intro hv
    exact (hstep.idle (hled.idle_of_ne hi hv (Ne.symm hne) hn)).2.1
  · exact hspawned v (List.mem_of_getElem? hi)

theorem append {vs : List Work} (h : Possession cut l) (hled : Led K l) (hcareful : Careful cut l k)
    (hkeeps : Keeps l k) (hstill : Still l k) (hvs : k.work = l.work ++ vs) (hfresh : ∀ v ∈ vs, v.isFresh) :
    Possession cut k := by
  refine ⟨h.vacant.keeps hstill.phase (heldLink?_of_held hstill.held) hkeeps, forall_mem_append hvs ?_ ?_⟩
  · intro v hv
    obtain ⟨i, hi⟩ := List.getElem?_of_mem hv
    exact h.frees_apart hled hcareful hi hkeeps fun _ => hstill.held
  · exact fun v hv => Work.frees_of_idle (Work.isActive_of_isFresh (hfresh v hv))

end Possession

/-- In all runs, who has a connection is as it is said above. -/
theorem Within.possession {allowed : Listener → Listener → Prop} {log : List Note} (h : Within world allowed l k)
    (hl : Noted world session log l) (hcareful : ∀ {l k}, allowed l k → Careful cut l k) (hp : Possession cut l) :
    Possession cut k := by
  induction h with
  | refl => exact hp
  | @step k j m hrun hstep hallowed ih =>
    obtain ⟨log, hnoted⟩ := hrun.noted hl
    obtain ⟨K, hled⟩ := hnoted.based.led
    rcases exists_work_or m with ⟨n, c, rfl⟩ | hm
    · obtain ⟨w, w', k', hn, hwork, rfl⟩ := step_work hstep
      exact ih.step hled (hcareful hallowed) hn hwork
    · obtain ⟨hkeeps, -, vs, hvs, hfresh⟩ := step_outside hstep hm
      exact ih.append hled (hcareful hallowed) hkeeps (step_still hstep hm) hvs hfresh

theorem possession_create (session : Session) : Possession cut (create session) :=
  ⟨fun _ => .of_none rfl, fun _ hw => nomatch hw⟩

/-! What follows for calls and for requests. -/

/-- the error with which a dial has just ended -/
def Work.dialError? : Work → Option ListenerError
  | .start _ _ stage => stage.failure?
  | .chain _ stage => stage.complaint?
  | _ => none

theorem Dialing.Frees.of_failure {d : Dialing} {e : ListenerError} (h : d.Frees cut parent l)
    (he : d.failure? = some e) : Free cut none l := by
  unfold failure? at he
  split at he
  · exact h
  · cases he

theorem Work.Frees.of_dialError {w : Work} {e : ListenerError} (h : w.Frees cut l) (he : w.dialError? = some e) :
    Free cut none l := by
  cases w with
  | start token retryOnClose stage =>
    cases stage with
    | dialing d => exact Dialing.Frees.of_failure h he
    | failing => exact h
    | _ => cases he
  | chain parent stage =>
    cases stage with
    | dialing info d => exact Dialing.Frees.of_failure h he
    | complaining => exact h
    | _ => cases he
  | stop | keepalive => cases he

/-- A request on a connection that is reported closed gets nowhere. -/
theorem send_of_closed {header : Header} {data : Fields} {stamp : Bool}
    (h : ∀ {c}, l.connection = some c → (l.closure? c.link).isSome) :
    (l.send header data stamp).1 ≠ .ok () ∧ (l.send header data stamp).2.links = l.links := by
  have hfails (e : ListenerError) : Except.error e ≠ Except.ok () := by simp
  unfold send
  split
  · exact ⟨hfails _, rfl⟩
  · cases hc : l.connection with
    | none => exact ⟨hfails _, rfl⟩
    | some c =>
      obtain ⟨data', n, hstamp⟩ := exists_stamped data c stamp
      simp only [hstamp]
      cases ht : l.links[c.link]? with
      | none => exact ⟨hfails _, rfl⟩
      | some t =>
        have hclosed : t.isClosed := by
          have := h hc
          rw [closure?, ht, Option.bind_some] at this
          rw [Transport.isClosed, this]
          rfl
        simp only [Transport.write_of_isClosed hclosed]
        obtain ⟨hlt, rfl⟩ := List.getElem?_eq_some_iff.1 ht
        exact ⟨hfails _, List.set_getElem_self hlt⟩

/-- In every phase but connected, and whenever a dial has just ended with an error, no connection is held; unless some
token was cancelled between the two looks that a dial takes at it: then one may be held that was reported closed. A
request gets nowhere in these phases. -/
theorem connections_are_held_while_connected (h : Within world (Careful cut) (create session) l) :
    (∀ {c}, l.connection = some c → l.phase ≠ .connected ∨ (∃ w ∈ l.work, w.dialError?.isSome) →
      cut ∧ (l.closure? c.link).isSome) ∧
    (l.phase ≠ .connected → ∀ header data stamp,
      (l.send header data stamp).1 ≠ .ok () ∧ (l.send header data stamp).2.links = l.links) := by
  have hp : Possession cut l := h.possession .start id (possession_create session)
  have hclosed {c : Connection} (hc : l.connection = some c) (hfree : Free cut none l) :
      cut ∧ (l.closure? c.link).isSome := by
    have hlink : l.heldLink? = some c.link := by
      rw [heldLink?, hc]
      rfl
    obtain ⟨hcut, hnone | hclosed⟩ := hfree hlink
    · cases hnone
    · exact ⟨hcut, hclosed⟩
  refine ⟨?_, ?_⟩
  · rintro c hc (hphase | ⟨w, hw, herror⟩)
    · exact hclosed hc (hp.vacant hphase)
    · obtain ⟨e, he⟩ := Option.isSome_iff_exists.1 herror
      exact hclosed hc ((hp.frees w hw).of_dialError he)
  · intro hphase header data stamp
    exact send_of_closed fun hc => (hclosed hc (hp.vacant hphase)).2

/-- a dial, and its connection lost -/
def vanishMoves : List Move :=
  .start ⟨[0]⟩ true :: (List.replicate 11 (Move.work 0 .proceed) ++
    .peerVanish 0 :: List.replicate 2 (Move.reader 0 .proceed) ++ List.replicate 5 (Move.work 1 .proceed))

/-- A connection that is lost is held no more. -/
theorem connections_are_held_while_connected_lost :
    ∃ l, Within openWorld (Careful False) (create scantSession) l ∧ l.phase = .disconnected ∧ l.connection = none := by
  have hran : (playWithin openWorld (fun l k => !cutsIn l k) vanishMoves (create scantSession)).any
      (fun l => l.phase == .disconnected) = true := by decide +kernel
  obtain ⟨l, hplay, hphase⟩ := (Option.any_eq_true _ _).1 hran
  rw [beq_iff_eq] at hphase
  have hrun : Within openWorld (Careful False) (create scantSession) l :=
    within_playWithin careful_of_not_cutsIn (.refl _) hplay
  obtain ⟨hheld, -⟩ := connections_are_held_while_connected hrun
  refine ⟨l, hrun, hphase, ?_⟩
  cases hc : l.connection with
  | none => rfl
  | some c => exact (hheld hc (.inl (by rw [hphase]; exact nofun))).1.elim

/-- a dial, and its token cancelled when the connection has just been offered -/
def cutMoves : List Move :=
  .start ⟨[0]⟩ true :: (List.replicate 7 (Move.work 0 .proceed) ++
    .cancel ⟨[0]⟩ :: List.replicate 4 (Move.work 0 .proceed) ++
    .wait 2000 :: List.replicate 5 (Move.work 0 .proceed))

/-- Whether the first call has failed because it was cancelled, and yet a connection is held in the closed phase. -/
def hasLeftover (l : Listener) : Bool :=
  l.phase == .closed && l.connection.isSome &&
    match l.work[0]? with
    | some (Work.start token true (.finished (.error .cancelled))) => token == ⟨[0]⟩
    | _ => false

/-- A call that was cancelled between the two looks has failed, and its connection is still held. -/
theorem connections_are_held_while_connected_cut :
    ∃ log l, Noted openWorld scantSession log l ∧
      l.work[0]? = some (.start ⟨[0]⟩ true (.finished (.error .cancelled))) ∧ l.phase = .closed ∧
      l.connection ≠ none := by
  have hran : (play openWorld cutMoves ([], create scantSession)).any (fun s => hasLeftover s.2) = true := by
    decide +kernel
  obtain ⟨⟨log, l⟩, hplay, hend⟩ := (Option.any_eq_true _ _).1 hran
  simp only [hasLeftover, Bool.and_eq_true, beq_iff_eq] at hend
  obtain ⟨⟨hphase, hheld⟩, hcall⟩ := hend
  refine ⟨log, l, noted_play .start hplay, ?_, hphase, Option.isSome_iff_ne_none.1 hheld⟩
  split at hcall
  · next token htask =>
    rw [beq_iff_eq] at hcall
    rw [htask, hcall]
  · cases hcall

end ChatWire.Listener
