import ChatWire.Proofs.Listener.KeyDiscipline
import ChatWire.Proofs.Transport.Closure

/-! What nothing takes back: the session, a cancellation, and the cause that a connection was first reported
closed for. And what only a chain that is under way changes: its budgets, and its rotation. -/

namespace ChatWire.Listener

/-- why a connection was reported closed -/
def closure? (l : Listener) (link : Nat) : Option CloseInfo := (l.links[link]?).bind Transport.closure

/-- Nothing that lasts is lost. -/
structure Keeps (l k : Listener) : Prop where
  session : k.session = l.session
  cancelled : ∀ t, l.isCancelled t → k.isCancelled t
  closure : ∀ {link info}, l.closure? link = some info → k.closure? link = some info

namespace Keeps

variable {l k m : Listener}

/-- The links, the tokens and the session are all that matters. -/
theorem same (hsession : k.session = l.session) (htokens : k.tokens.cancelled = l.tokens.cancelled)
    (hlinks : k.links = l.links) : Keeps l k where
  session := hsession
  cancelled t ht := by
    rw [isCancelled, Cancellation.isCancelled, htokens]
    exact ht
  closure h := by
    rw [closure?, hlinks]
    exact h

theorem refl (l : Listener) : Keeps l l := same rfl rfl rfl

theorem trans (h : Keeps l k) (h' : Keeps k m) : Keeps l m :=
  ⟨h'.session.trans h.session, fun t ht => h'.cancelled t (h.cancelled t ht), fun hl => h'.closure (h.closure hl)⟩

/-- Links may change as long as what was reported stays. -/
theorem relink {links : List Transport}
    (h : ∀ {n : Nat} {t : Transport} {info : CloseInfo}, l.links[n]? = some t → t.closure = some info →
      ∃ t', links[n]? = some t' ∧ t'.closure = some info) : Keeps l { l with links } where
  session := rfl
  cancelled _ ht := ht
  closure hl := by
    obtain ⟨t, ht, hinfo⟩ := Option.bind_eq_some_iff.1 hl
    obtain ⟨t', ht', hinfo'⟩ := h ht hinfo
    exact Option.bind_eq_some_iff.2 ⟨t', ht', hinfo'⟩

theorem cancel (t : Token) (l : Listener) : Keeps l (l.cancel t) :=
  ⟨rfl, fun _ h => Cancellation.isCancelled_of_cancel h, fun h => h⟩

theorem setLink {link : Nat} {t t' : Transport} (ht : l.links[link]? = some t)
    (h : ∀ info, t.closure = some info → t'.closure = some info) : Keeps l (l.setLink link t') := by
  apply relink
  intro n u info hu hinfo
  rw [List.getElem?_set]
  split_ifs with hn hlt
  · subst hn
    rw [ht] at hu
    exact ⟨t', rfl, h info (Option.some.inj hu ▸ hinfo)⟩
  · subst hn
    exact absurd (List.getElem?_eq_some_iff.1 hu).1 hlt
  · exact ⟨u, hu, hinfo⟩

theorem modify {link : Nat} {f : Transport → Transport} (h : ∀ t, (f t).closure = t.closure) :
    Keeps l { l with links := l.links.modify link f } := by
  apply relink
  intro n t info ht hinfo
  rw [List.getElem?_modify, ht]
  refine ⟨_, rfl, ?_⟩
  split_ifs
  · exact (h t).trans hinfo
  · exact hinfo

theorem stopListening (link : Nat) (l : Listener) : Keeps l (l.stopListening link) := modify fun _ => rfl

theorem stepClosing {link : Nat} {info : CloseInfo} {stage stage' : Transport.Closing}
    (h : l.stepClosing link info stage = some (stage', k)) : Keeps l k := by
  simp only [Listener.stepClosing, Option.bind_eq_bind, Option.bind_eq_some_iff, Option.some.injEq] at h
  obtain ⟨t, ht, ⟨s, t'⟩, hstep, heq⟩ := h
  obtain ⟨-, rfl⟩ := Prod.mk.inj heq
  exact setLink ht fun _ => Transport.closure_stepClosing hstep

theorem append (t : Transport) (l : Listener) : Keeps l { l with links := l.links ++ [t] } := by
  apply relink
  intro n u info hu hinfo
  exact ⟨u, by rw [List.getElem?_append_left (List.getElem?_eq_some_iff.1 hu).1, hu], hinfo⟩

theorem setTask (n : Nat) (w : Work) (l : Listener) : Keeps l (l.setTask n w) := same rfl rfl rfl

theorem install (parent : Token) (link : Nat) (l : Listener) : Keeps l (l.install parent link) := by
  unfold Listener.install
  split <;> exact same rfl rfl rfl

theorem drop (l : Listener) : Keeps l l.drop := by
  unfold Listener.drop
  cases l.connection with
  | none => exact same rfl rfl rfl
  | some c => exact (cancel c.token l).trans (same rfl rfl rfl)

theorem rekey (key : CipherKey) (c : Connection) (l : Listener) : Keeps l (l.rekey key c).2 := by
  unfold Listener.rekey
  cases c.keepalive with
  | none =>
    by_cases hp : l.session.settings.pingInterval = 0
    · rw [if_pos hp]
      exact same rfl rfl rfl
    · rw [if_neg hp]
      exact same rfl rfl rfl
  | some t =>
    have hrelieved := cancel t l
    by_cases hp : (l.cancel t).session.settings.pingInterval = 0
    · rw [if_pos hp]
      exact hrelieved.trans (same rfl rfl rfl)
    · rw [if_neg hp]
      exact hrelieved.trans (same rfl rfl rfl)

theorem handle (link : Nat) (b : Bytes) (l : Listener) : Keeps l (l.handle link b).2 := by
  unfold Listener.handle
  cases Reaction.ofBytes b with
  | rekey key =>
    cases l.connection with
    | none => exact refl l
    | some c => exact rekey key c l
  | _ => exact refl l

/-- Sending counts a request and writes to a link. -/
theorem send (h : Header) (data : Fields) (stamp : Bool) (l : Listener) :
    ∃ connection links, (l.send h data stamp).2 = { l with connection, links } ∧ Keeps l { l with connection, links } := by
  unfold Listener.send
  split
  · exact ⟨l.connection, l.links, rfl, refl l⟩
  · cases hc : l.connection with
    | none => exact ⟨l.connection, l.links, rfl, refl l⟩
    | some c =>
      obtain ⟨data', n, hstamp⟩ := exists_stamped data c stamp
      simp only [hstamp]
      cases ht : l.links[c.link]? with
      | none => exact ⟨_, l.links, rfl, same rfl rfl rfl⟩
      | some t =>
        simp only
        cases hw : t.write .binary (frame h data').encode with
        | mk r t' =>
          have hset := setLink ht fun info hinfo => (Transport.closure_write hw).trans hinfo
          refine ⟨some { c with requests := n }, l.links.set c.link t', ?_, hset.trans (same rfl rfl rfl)⟩
          cases r <;> rfl

end Keeps

/-! The steps of the tasks. -/

variable {world : Surroundings} {parent : Token} {l k : Listener}

theorem DialingStep.keeps {d d' : Dialing} (h : DialingStep world parent l d d' k) : Keeps l k := by
  cases h with
  | nowhere | noUrl | refused | abandon | keep => exact .refl l
  | dial | announce => exact .same rfl rfl rfl
  | opened => exact .append ..
  | install => exact .install ..
  | abandoned => exact .stopListening ..
  | close hclosing => exact .stepClosing hclosing

theorem ChainStep.keeps {chain chain' : Chain} (h : ChainStep world parent l chain chain' k) : Keeps l k := by
  cases h with
  | take ht | takeError ht => exact .setLink ht fun _ h => h
  | closed | confirmed | unconfirmed => exact .stopListening ..
  | @handle link b _ _ hhandle =>
    have := Keeps.handle link b l
    rwa [hhandle] at this
  | yield hclosing | stop hclosing => exact .stepClosing hclosing
  | drop => exact .drop l
  | dial hd => exact hd.keeps
  | finish => exact (Keeps.cancel parent l).trans (.same rfl rfl rfl)
  | _ => exact .same rfl rfl rfl

theorem StartStep.keeps {token : Token} {retryOnClose : Bool} {stage stage' : Starting}
    (h : StartStep world token retryOnClose l stage stage' k) : Keeps l k := by
  cases h with
  | dial hd => exact hd.keeps
  | _ => exact .same rfl rfl rfl

theorem StopStep.keeps {stage stage' : Stopping} (h : StopStep l stage stage' k) : Keeps l k := by
  cases h with
  | cancel => exact .cancel ..
  | close hclosing => exact .stepClosing hclosing
  | _ => exact .same rfl rfl rfl

theorem PingStep.keeps {link : Nat} {token : Token} {stage stage' : Pinging}
    (h : PingStep world link token l stage stage' k) : Keeps l k := by
  cases h with
  | ping _ ht hwrite => exact .setLink ht fun _ hinfo => (Transport.closure_write hwrite).trans hinfo
  | _ => exact .same rfl rfl rfl

theorem WorkStep.keeps {w w' : Work} (h : WorkStep world l w w' k) : Keeps l k := by
  cases h with
  | start hs => exact hs.keeps
  | stop hs => exact hs.keeps
  | chain hs => exact hs.keeps
  | keepalive hs => exact hs.keeps

/-! What only a chain changes that is under way. -/

/-- Whether, when and where to connect again is as before. -/
structure Spares (l k : Listener) : Prop where
  retry : k.retry = l.retry
  rotation : k.rotation = l.rotation
  retryOnClose : k.retryOnClose = l.retryOnClose

namespace Spares

variable {m : Listener}

theorem refl (l : Listener) : Spares l l := ⟨rfl, rfl, rfl⟩

theorem trans (h : Spares l k) (h' : Spares k m) : Spares l m :=
  ⟨h'.retry.trans h.retry, h'.rotation.trans h.rotation, h'.retryOnClose.trans h.retryOnClose⟩

theorem setTask (n : Nat) (w : Work) (l : Listener) : Spares l (l.setTask n w) := ⟨rfl, rfl, rfl⟩

end Spares

/-- Nor has a phase been entered, and nothing dialed or published. -/
structure Rests (l k : Listener) : Prop extends Spares l k where
  phase : k.phase = l.phase
  dials : k.dials = l.dials
  history : k.history = l.history

namespace Rests

theorem refl (l : Listener) : Rests l l := ⟨.refl l, rfl, rfl, rfl⟩

theorem stepClosing {link : Nat} {info : CloseInfo} {stage stage' : Transport.Closing}
    (h : l.stepClosing link info stage = some (stage', k)) : Rests l k := by
  simp only [Listener.stepClosing, Option.bind_eq_bind, Option.bind_eq_some_iff, Option.some.injEq] at h
  obtain ⟨t, -, ⟨s, t'⟩, -, heq⟩ := h
  cases heq
  exact ⟨⟨rfl, rfl, rfl⟩, rfl, rfl, rfl⟩

end Rests

theorem StopStep.rests {stage stage' : Stopping} (h : StopStep l stage stage' k) : Rests l k := by
  cases h with
  | close hclosing => exact .stepClosing hclosing
  | _ => exact ⟨⟨rfl, rfl, rfl⟩, rfl, rfl, rfl⟩

theorem PingStep.rests {link : Nat} {token : Token} {stage stage' : Pinging}
    (h : PingStep world link token l stage stage' k) : Rests l k := by
  cases h <;> exact ⟨⟨rfl, rfl, rfl⟩, rfl, rfl, rfl⟩

/-- A task that leads no chain spares it, unless none is under way. -/
theorem WorkStep.spares {w w' : Work} (h : WorkStep world l w w' k) (hidle : w.isActive = false) :
    Spares l k ∨ l.phase.isOpen = false := by
  cases h with
  | start hs =>
    cases hs with
    | late | check | refuse => exact .inl (.refl l)
    | claim hphase => exact .inr (Phase.isOpen_eq_false_iff.2 hphase)
    | _ => cases hidle
  | stop hs => exact .inl hs.rests.toSpares
  | chain hs =>
    cases hs with
    | farewell | closeStreams | finish => exact .inl ⟨rfl, rfl, rfl⟩
    | _ => cases hidle
  | keepalive hs => exact .inl hs.rests.toSpares

/-! The other moves. -/

/-- a call that has just been made -/
def Work.isFresh : Work → Bool
  | .start _ _ .check | .stop .look => true
  | _ => false

theorem Work.eq_of_isFresh {w : Work} (h : w.isFresh) :
    (∃ token retryOnClose, w = .start token retryOnClose .check) ∨ w = .stop .look := by
  unfold isFresh at h
  split at h
  · exact .inl ⟨_, _, rfl⟩
  · exact .inr rfl
  · cases h

/-- Where no call is made. -/
theorem outside_same (hkeeps : Keeps l k) (hspares : Spares l k) (hwork : k.work = l.work) :
    Keeps l k ∧ Spares l k ∧ ∃ vs, k.work = l.work ++ vs ∧ ∀ v ∈ vs, v.isFresh := by
  refine ⟨hkeeps, hspares, [], ?_, by simp⟩
  rw [hwork, List.append_nil]

/-- What is not a step of a task spares a chain, and brings at most a call. -/
theorem step_outside {m : Move} (h : l.step world m = some k) (hm : ∀ n c, m ≠ .work n c) :
    Keeps l k ∧ Spares l k ∧ ∃ vs, k.work = l.work ++ vs ∧ ∀ v ∈ vs, v.isFresh := by
  cases m with
  | work n c => exact absurd rfl (hm n c)
  | reader n c =>
    simp only [step, Option.bind_eq_bind, Option.bind_eq_some_iff, Option.some.injEq] at h
    obtain ⟨t, ht, t', hstep, rfl⟩ := h
    exact outside_same (.setLink ht fun _ => Transport.closure_stepReader hstep) ⟨rfl, rfl, rfl⟩ rfl
  | writer n c =>
    simp only [step, Option.bind_eq_bind, Option.bind_eq_some_iff, Option.some.injEq] at h
    obtain ⟨t, ht, t', hstep, rfl⟩ := h
    exact outside_same (.setLink ht fun _ => Transport.closure_stepWriter hstep) ⟨rfl, rfl, rfl⟩ rfl
  | start token retryOnClose =>
    cases Option.some.inj h
    exact ⟨.same rfl rfl rfl, ⟨rfl, rfl, rfl⟩, _, rfl, by simp [Work.isFresh]⟩
  | stop =>
    cases Option.some.inj h
    exact ⟨.same rfl rfl rfl, ⟨rfl, rfl, rfl⟩, _, rfl, by simp [Work.isFresh]⟩
  | cancel token =>
    cases Option.some.inj h
    exact outside_same (.cancel ..) ⟨rfl, rfl, rfl⟩ rfl
  | send header data stamp =>
    cases Option.some.inj h
    obtain ⟨connection, links, heq, hkeeps⟩ := Keeps.send header data stamp l
    rw [heq]
    exact outside_same hkeeps ⟨rfl, rfl, rfl⟩ rfl
  | peerSend n f =>
    cases Option.some.inj h
    refine outside_same (.modify ?_) ⟨rfl, rfl, rfl⟩ rfl
    intro t
    unfold Transport.peerSend
    split <;> rfl
  | peerVanish n =>
    cases Option.some.inj h
    exact outside_same (.modify fun _ => rfl) ⟨rfl, rfl, rfl⟩ rfl
  | fault f =>
    cases Option.some.inj h
    have hlinks : Keeps l { l with links := l.links.map (Transport.setFault f) } := by
      apply Keeps.relink
      intro n t info ht hinfo
      exact ⟨t.setFault f, by rw [List.getElem?_map, ht]; rfl, hinfo⟩
    exact outside_same (hlinks.trans (.same rfl rfl rfl)) ⟨rfl, rfl, rfl⟩ rfl
  | wait ms =>
    cases Option.some.inj h
    exact outside_same (.same rfl rfl rfl) ⟨rfl, rfl, rfl⟩ rfl

end ChatWire.Listener
