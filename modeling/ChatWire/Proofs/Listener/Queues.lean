import ChatWire.Proofs.Listener.Story
import ChatWire.Proofs.Task.Record
import ChatWire.Proofs.Transport.Steps

/-! What a move does to the connections: which of them it reads from or writes to, and that it leaves the queues of
the others alone. -/

namespace ChatWire

/-- The reading task is where it was, and so is what waits to be taken. -/
structure Transport.SameInbound (t t' : Transport) : Prop where
  reader : t'.reader = t.reader
  inbound : t'.inbound = t.inbound

/-- So is what waits to be sent. -/
structure Transport.SameQueues (t t' : Transport) : Prop extends SameInbound t t' where
  outbound : t'.outbound = t.outbound

namespace Transport

variable {t t' : Transport}

theorem SameInbound.refl (t : Transport) : SameInbound t t := ⟨rfl, rfl⟩

theorem WriterStep.sameInbound {now : Nat} {c : Choice} (h : WriterStep now t c t') : SameInbound t t' :=
  ⟨h.reader, h.inbound⟩

theorem SameInbound.write {b : Bytes} {r : Except TransportError Unit} (h : t.write .binary b = (r, t')) :
    SameInbound t t' := by
  rcases t.write_binary_cases b with ⟨e, he⟩ | hok
  · cases h.symm.trans he
    exact .refl t
  · cases h.symm.trans hok
    exact ⟨rfl, rfl⟩

namespace SameQueues

theorem refl (t : Transport) : SameQueues t t := ⟨.refl t, rfl⟩

theorem fire (info : CloseInfo) (t : Transport) : SameQueues t (t.fire info) := by
  unfold Transport.fire
  split <;> exact ⟨⟨rfl, rfl⟩, rfl⟩

theorem closing {now : Nat} {info : CloseInfo} {stage stage' : Closing}
    (h : ClosingStep now info t stage stage' t') : SameQueues t t' := by
  cases h with
  | report => exact fire info t
  | _ => exact ⟨⟨rfl, rfl⟩, rfl⟩

end SameQueues

end Transport

namespace Listener

/-- A connection, which is as one just made as long as there is none. -/
def linkAt (l : Listener) (link : Nat) : Transport := (l.links[link]?).getD (.opened none)

variable {world : Surroundings} {parent : Token} {l k : Listener}

theorem linkAt_eq {link : Nat} {t : Transport} (h : l.links[link]? = some t) : l.linkAt link = t := by
  rw [linkAt, h]
  rfl

theorem linkAt_of_links_eq (h : k.links = l.links) (link : Nat) : k.linkAt link = l.linkAt link := by
  rw [linkAt, linkAt, h]

theorem linkAt_setLink_self {link : Nat} {t t' : Transport} (h : l.links[link]? = some t) :
    (l.setLink link t').linkAt link = t' :=
  linkAt_eq (List.getElem?_set_self (List.getElem?_eq_some_iff.1 h).1)

theorem linkAt_setLink_ne {link i : Nat} {t' : Transport} (h : i ≠ link) :
    (l.setLink link t').linkAt i = l.linkAt i := by
  unfold linkAt setLink
  rw [List.getElem?_set_ne h.symm]

/-- What holds of the connection that is set holds of all, if it holds of those that are not. -/
theorem linkAt_setLink {P : Transport → Transport → Prop} {link : Nat} {t t' : Transport} (hrefl : ∀ u, P u u)
    (ht : l.links[link]? = some t) (h : P t t') (i : Nat) : P (l.linkAt i) ((l.setLink link t').linkAt i) := by
  by_cases hi : i = link
  · subst hi
    rwa [linkAt_eq ht, linkAt_setLink_self ht]
  · rw [linkAt_setLink_ne hi]
    exact hrefl _

/-- No connection is read from or written to. -/
def Undisturbed (l k : Listener) : Prop := ∀ i, Transport.SameQueues (l.linkAt i) (k.linkAt i)

namespace Undisturbed

theorem of_links_eq (h : k.links = l.links) : Undisturbed l k := by
  intro i
  rw [linkAt_of_links_eq h]
  exact .refl _

theorem refl (l : Listener) : Undisturbed l l := of_links_eq rfl

theorem setLink {link : Nat} {t t' : Transport} (ht : l.links[link]? = some t) (h : Transport.SameQueues t t') :
    Undisturbed l (l.setLink link t') := linkAt_setLink .refl ht h

/-- Connections may change as long as their queues do not. -/
theorem map {f : Nat → Transport → Transport} (h : ∀ i t, Transport.SameQueues t (f i t))
    (hlinks : ∀ i, k.links[i]? = (l.links[i]?).map (f i)) : Undisturbed l k := by
  intro i
  unfold linkAt
  rw [hlinks i]
  cases l.links[i]? with
  | none => exact .refl _
  | some t => exact h i t

theorem modify {link : Nat} {f : Transport → Transport} (h : ∀ t, Transport.SameQueues t (f t)) :
    Undisturbed l { l with links := l.links.modify link f } := by
  refine map (f := fun i t => if link = i then f t else t) ?_ fun i => List.getElem?_modify ..
  intro i t
  split_ifs
  · exact h t
  · exact .refl t

theorem stopListening (link : Nat) (l : Listener) : Undisturbed l (l.stopListening link) :=
  modify fun _ => ⟨⟨rfl, rfl⟩, rfl⟩

theorem stepClosing {link : Nat} {info : CloseInfo} {stage stage' : Transport.Closing}
    (h : l.stepClosing link info stage = some (stage', k)) : Undisturbed l k := by
  simp only [Listener.stepClosing, Option.bind_eq_bind, Option.bind_eq_some_iff, Option.some.injEq] at h
  obtain ⟨t, ht, ⟨s, t'⟩, hstep, heq⟩ := h
  cases heq
  exact setLink ht (.closing (Transport.stepClosing_cases hstep))

/-- A new connection has nothing in its queues. -/
theorem append (fault : Option IoFault) (l : Listener) :
    Undisturbed l { l with links := l.links ++ [.opened fault] } := by
  intro i
  unfold linkAt
  rw [List.getElem?_append]
  split_ifs with hi
  · exact .refl _
  · rw [List.getElem?_eq_none (Nat.le_of_not_lt hi), List.getElem?_singleton]
    split_ifs
    · exact ⟨⟨rfl, rfl⟩, rfl⟩
    · exact .refl _

end Undisturbed

/-! The tasks. -/

theorem install_links (parent : Token) (link : Nat) (l : Listener) : (l.install parent link).links = l.links := by
  unfold install
  split <;> rfl

theorem drop_links (l : Listener) : l.drop.links = l.links := by
  unfold drop
  cases l.connection <;> rfl

theorem handle_links (link : Nat) (b : Bytes) (l : Listener) : (l.handle link b).2.links = l.links := by
  unfold handle
  cases Reaction.ofBytes b with
  | rekey key =>
    cases l.connection with
    | none => rfl
    | some c => exact (rekey_spec key c l).2.2.1
  | _ => rfl

theorem DialingStep.undisturbed {d d' : Dialing} (h : DialingStep world parent l d d' k) : Undisturbed l k := by
  cases h with
  | nowhere | noUrl | refused | abandon | keep => exact .refl l
  | dial | announce => exact .of_links_eq rfl
  | opened => exact .append l.fault l
  | install => exact .of_links_eq (install_links ..)
  | abandoned => exact .stopListening _ l
  | close hclosing => exact .stepClosing hclosing

/-- Whether a chain takes a payload to handle it, or a task pings and waits for the next time. -/
def Work.disturbs : Work → Work → Bool
  | .chain _ (.receiving _ .messages), .chain _ (.handling ..) => true
  | .keepalive _ _ (.waiting _), .keepalive _ _ (.waiting _) => true
  | _, _ => false

/-- What a step of a task does to the connections: a chain takes a payload, a task pings, or nothing. -/
inductive Disturbs (world : Surroundings) (l : Listener) : Work → Work → Listener → Prop
  | nothing {w w' : Work} {k : Listener} : w.disturbs w' = false → Undisturbed l k → Disturbs world l w w' k
  | take {parent : Token} {link : Nat} {t : Transport} {b : Bytes} {rest : List Bytes} : l.links[link]? = some t →
      t.inbound = b :: rest → Disturbs world l (.chain parent (.receiving link .messages))
        (.chain parent (.handling link b)) (l.setLink link { t with inbound := rest })
  | ping {link due next : Nat} {token : Token} {t t' : Transport} {r : Except TransportError Unit} :
      l.links[link]? = some t → t.write .binary (pingFrame (world.wallClock l.now)).encode = (r, t') →
        Disturbs world l (.keepalive link token (.waiting due)) (.keepalive link token (.waiting next))
          (l.setLink link t')

theorem WorkStep.disturbs {w w' : Work} (h : WorkStep world l w w' k) : Disturbs world l w w' k := by
  cases h with
  | start hs =>
    cases hs with
    | dial hd => exact .nothing rfl hd.undisturbed
    | _ => exact .nothing rfl (.of_links_eq rfl)
  | stop hs =>
    cases hs with
    | close hclosing => exact .nothing rfl (.stepClosing hclosing)
    | _ => exact .nothing rfl (.of_links_eq rfl)
  | chain hs =>
    cases hs with
    | take ht hinbound => exact .take ht hinbound
    | takeError ht => exact .nothing rfl (.setLink ht ⟨⟨rfl, rfl⟩, rfl⟩)
    | closed | confirmed | unconfirmed => exact .nothing rfl (.stopListening _ l)
    | @handle link b _ _ hhandle =>
      have hlinks := handle_links link b l
      rw [hhandle] at hlinks
      exact .nothing rfl (.of_links_eq hlinks)
    | yield hclosing | stop hclosing => exact .nothing rfl (.stepClosing hclosing)
    | drop => exact .nothing rfl (.of_links_eq (drop_links l))
    | dial hd => exact .nothing rfl hd.undisturbed
    | _ => exact .nothing rfl (.of_links_eq rfl)
  | keepalive hs =>
    cases hs with
    | ping _ ht hwrite => exact .ping ht hwrite
    | _ => exact .nothing rfl (.of_links_eq rfl)

/-! All moves. -/

def Move.isAside : Move → Bool
  | .reader .. | .writer .. | .work .. | .send .. => false
  | _ => true

/-- What a move is to the connections: a step of one of their tasks, a step of a task of the listener, or a request;
or it concerns neither their queues nor the one that is held, and brings at most a call. -/
inductive Concerns (world : Surroundings) (l : Listener) : Move → Listener → Prop
  | reader {n : Nat} {c : Choice} {t t' : Transport} : l.links[n]? = some t → Transport.ReaderStep t c t' →
      Concerns world l (.reader n c) (l.setLink n t')
  | writer {n : Nat} {c : Choice} {t t' : Transport} : l.links[n]? = some t → Transport.WriterStep l.now t c t' →
      Concerns world l (.writer n c) (l.setLink n t')
  | work {n : Nat} {c : Choice} {w w' : Work} {k : Listener} : l.work[n]? = some w → WorkStep world l w w' k →
      Concerns world l (.work n c) (k.setTask n w')
  | send {h : Header} {data : Fields} {stamp : Bool} : Concerns world l (.send h data stamp) (l.send h data stamp).2
  | aside {m : Move} {k : Listener} {vs : List Work} : m.isAside → Undisturbed l k →
      k.links.length = l.links.length → k.connection = l.connection → k.work = l.work ++ vs → (∀ v ∈ vs, v.isFresh) →
        Concerns world l m k

/-- A request may be written to a connection, which is not read from. -/
theorem send_sameInbound (h : Header) (data : Fields) (stamp : Bool) (l : Listener) (i : Nat) :
    Transport.SameInbound (l.linkAt i) ((l.send h data stamp).2.linkAt i) := by
  unfold send
  split
  · exact .refl _
  · cases l.connection with
    | none => exact .refl _
    | some c =>
      obtain ⟨data', n, hstamp⟩ := exists_stamped data c stamp
      simp only [hstamp]
      cases ht : l.links[c.link]? with
      | none => exact .refl _
      | some t =>
        simp only
        cases hw : t.write .binary (frame h data').encode with
        | mk r t' =>
          have hset := linkAt_setLink .refl ht (Transport.SameInbound.write hw) i
          cases r <;> exact hset

theorem step_concerns {m : Move} (h : l.step world m = some k) : Concerns world l m k := by
  cases m with
  | reader n c =>
    simp only [step, Option.bind_eq_bind, Option.bind_eq_some_iff, Option.some.injEq] at h
    obtain ⟨t, ht, t', hstep, rfl⟩ := h
    exact .reader ht (Transport.stepReader_cases hstep)
  | writer n c =>
    simp only [step, Option.bind_eq_bind, Option.bind_eq_some_iff, Option.some.injEq] at h
    obtain ⟨t, ht, t', hstep, rfl⟩ := h
    exact .writer ht (Transport.stepWriter_cases hstep)
  | work n c =>
    simp only [step, Option.bind_eq_bind, Option.bind_eq_some_iff, Option.some.injEq] at h
    obtain ⟨w, hw, ⟨w', k'⟩, hstep, rfl⟩ := h
    exact .work hw (stepWork_cases hstep)
  | send header data stamp =>
    cases Option.some.inj h
    exact .send
  | start | stop =>
    cases Option.some.inj h
    refine .aside rfl (.of_links_eq rfl) rfl rfl rfl ?_
    intro v hv
    cases List.mem_singleton.1 hv
    rfl
  | cancel | wait =>
    cases Option.some.inj h
    exact .aside rfl (.of_links_eq rfl) rfl rfl (List.append_nil _).symm (by simp)
  | peerSend n f =>
    cases Option.some.inj h
    refine .aside rfl (.modify ?_) (List.length_modify ..) rfl (List.append_nil _).symm (by simp)
    intro t
    unfold Transport.peerSend
    split <;> exact ⟨⟨rfl, rfl⟩, rfl⟩
  | peerVanish n =>
    cases Option.some.inj h
    exact .aside rfl (.modify fun _ => ⟨⟨rfl, rfl⟩, rfl⟩) (List.length_modify ..) rfl (List.append_nil _).symm (by simp)
  | fault f =>
    cases Option.some.inj h
    have hlinks : Undisturbed l { l with fault := f, links := l.links.map (Transport.setFault f) } :=
      .map (f := fun _ => Transport.setFault f) (fun _ _ => ⟨⟨rfl, rfl⟩, rfl⟩) fun i => List.getElem?_map ..
    exact .aside rfl hlinks (List.length_map ..) rfl (List.append_nil _).symm (by simp)

/-- a call that dials with success, and what its chain, the first task after it, and the connection do then -/
def dialedMoves (ms : List Move) : List Move := .start ⟨[0]⟩ true :: (List.replicate 11 (Move.work 0 .proceed) ++ ms)

/-- A run with a record of any kind has notes, too. -/
theorem noted_of_recorded {α : Type} {session : Session} {note : Move → Listener → Listener → List α} {log : List α}
    (h : Schedule.Recorded (step world) note (create session) log l) : ∃ notes, Noted world session notes l := by
  induction h with
  | start => exact ⟨_, .start⟩
  | step _ hstep ih =>
    obtain ⟨notes, hnoted⟩ := ih
    exact ⟨_, hnoted.step hstep⟩

end Listener

end ChatWire
