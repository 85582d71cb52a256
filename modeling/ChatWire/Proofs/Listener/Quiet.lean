import ChatWire.Proofs.Listener.Steps
import ChatWire.Proofs.Listener.Streams

/-! Steps that leave the connection alone: closing a transport, stopping, pinging, sending. What any step publishes is
noted, and is in the streams. -/

namespace ChatWire.Listener

/-- `es` are published: they are noted, and each stream takes those of its kind. Streams that are closed or opened on the
way hold what they held. -/
structure Publishes (es : List Event) (l k : Listener) : Prop where
  history : k.history = l.history ++ es
  holds : ∀ {capacity past}, l.events.Holds capacity past → k.events.Holds capacity (past ++ es)

namespace Publishes

variable {es fs : List Event} {l k m : Listener}

/-- Where the streams hold what they held. -/
theorem none (hhistory : k.history = l.history)
    (hholds : ∀ {capacity past}, l.events.Holds capacity past → k.events.Holds capacity past) : Publishes [] l k :=
  ⟨by rw [hhistory, List.append_nil], fun h => by
    rw [List.append_nil]
    exact hholds h⟩

theorem same (hhistory : k.history = l.history) (hevents : k.events = l.events) : Publishes [] l k :=
  none hhistory fun h => hevents ▸ h

theorem publish (e : Event) (l : Listener) : Publishes [e] l (l.publish e) :=
  ⟨rfl, fun h => h.take (.publish e l.events)⟩

theorem trans (h : Publishes es l k) (h' : Publishes fs k m) : Publishes (es ++ fs) l m where
  history := by rw [h'.history, h.history, List.append_assoc]
  holds hl := by
    rw [← List.append_assoc]
    exact h'.holds (h.holds hl)

theorem closeStreams (l : Listener) : Publishes [] l { l with events := l.events.close } := none rfl fun h => h.close

theorem reopenStreams (l : Listener) : Publishes [] l { l with events := l.events.reopen } := none rfl fun h => h.reopen

end Publishes

/-- the link of the connection that is held, and its key -/
def held (l : Listener) : Option (Nat × Option CipherKey) := l.connection.map fun c => (c.link, c.cipherKey)

theorem cipherKey?_of_held {l : Listener} {link : Nat} {key : Option CipherKey} (h : l.held = some (link, key)) :
    l.cipherKey? = key := by
  unfold held at h
  unfold cipherKey?
  cases hc : l.connection with
  | none => rw [hc] at h; cases h
  | some c =>
    rw [hc] at h
    exact (Prod.mk.inj (Option.some.inj h)).2

/-- Stamping a request changes nothing of the connection but the count of its requests. -/
theorem exists_stamped (data : Fields) (c : Connection) (stamp : Bool) :
    ∃ data' n, (if stamp then
      (Fields.insert requestField (requestId c.requests) data, { c with requests := c.requests + 1 })
      else (data, c)) = (data', { c with requests := n }) := by
  cases stamp with
  | false => exact ⟨data, c.requests, rfl⟩
  | true => exact ⟨_, c.requests + 1, rfl⟩

/-- All that happens is that `es` are published, and things that do not matter to a connection. -/
structure Quiet (es : List Event) (l k : Listener) : Prop extends Publishes es l k where
  session : k.session = l.session
  phase : k.phase = l.phase
  held : k.held = l.held
  links : k.links.length = l.links.length
  cancelled : ∀ t, l.isCancelled t → k.isCancelled t
  work : k.work = l.work

namespace Quiet

variable {es fs : List Event} {l k m : Listener}

theorem refl (l : Listener) : Quiet [] l l := ⟨.same rfl rfl, rfl, rfl, rfl, rfl, fun _ h => h, rfl⟩

theorem trans (h : Quiet es l k) (h' : Quiet fs k m) : Quiet (es ++ fs) l m where
  toPublishes := h.toPublishes.trans h'.toPublishes
  session := h'.session.trans h.session
  phase := h'.phase.trans h.phase
  held := h'.held.trans h.held
  links := h'.links.trans h.links
  cancelled t ht := h'.cancelled t (h.cancelled t ht)
  work := h'.work.trans h.work

theorem publish (e : Event) (l : Listener) : Quiet [e] l (l.publish e) :=
  ⟨.publish e l, rfl, rfl, rfl, rfl, fun _ h => h, rfl⟩

theorem cancel (t : Token) (l : Listener) : Quiet [] l (l.cancel t) :=
  ⟨.same rfl rfl, rfl, rfl, rfl, rfl, fun _ h => Cancellation.isCancelled_of_cancel h, rfl⟩

theorem track (t : Tracker) (l : Listener) : Quiet [] l { l with tracker := t } :=
  ⟨.same rfl rfl, rfl, rfl, rfl, rfl, fun _ h => h, rfl⟩

theorem closeStreams (l : Listener) : Quiet [] l { l with events := l.events.close } :=
  ⟨.closeStreams l, rfl, rfl, rfl, rfl, fun _ h => h, rfl⟩

theorem relink {links : List Transport} (h : links.length = l.links.length) : Quiet [] l { l with links } :=
  ⟨.same rfl rfl, rfl, rfl, rfl, h, fun _ h => h, rfl⟩

theorem setLink (n : Nat) (t : Transport) (l : Listener) : Quiet [] l (l.setLink n t) := relink List.length_set

theorem stopListening (link : Nat) (l : Listener) : Quiet [] l (l.stopListening link) :=
  relink (List.length_modify ..)

theorem stepClosing {link : Nat} {info : CloseInfo} {stage stage' : Transport.Closing}
    (h : l.stepClosing link info stage = some (stage', k)) : Quiet [] l k := by
  simp only [Listener.stepClosing, Option.bind_eq_bind, Option.bind_eq_some_iff, Option.some.injEq] at h
  obtain ⟨t, -, ⟨s, t'⟩, -, heq⟩ := h
  obtain ⟨-, rfl⟩ := Prod.mk.inj heq
  exact setLink ..

theorem recount {c : Connection} (h : l.connection = some c) (n : Nat) :
    Quiet [] l { l with connection := some { c with requests := n } } where
  toPublishes := .same rfl rfl
  session := rfl
  phase := rfl
  held := by simp only [Listener.held, h, Option.map_some]
  links := rfl
  cancelled _ h := h
  work := rfl

theorem send (h : Header) (data : Fields) (stamp : Bool) (l : Listener) : Quiet [] l (l.send h data stamp).2 := by
  unfold Listener.send
  split
  · exact refl l
  · cases hc : l.connection with
    | none => exact refl l
    | some c =>
      obtain ⟨data', n, hn⟩ := exists_stamped data c stamp
      simp only [hn]
      cases l.links[c.link]? with
      | none => exact recount hc n
      | some t =>
        simp only
        rcases t.write .binary (frame h data').encode with ⟨_ | _, t'⟩
        · exact (recount hc n).trans (setLink ..)
        · exact (recount hc n).trans (setLink ..)

end Quiet

/-! Steps of tasks that lead no chain. -/

variable {world : Surroundings} {l k : Listener}

theorem StopStep.quiet {stage stage' : Stopping} (h : StopStep l stage stage' k) : Quiet [] l k := by
  cases h with
  | look | skip | closed | join | finish => exact .refl l
  | cancel => exact .cancel ..
  | close hclosing => exact .stepClosing hclosing
  | shut => exact .track ..

theorem PingStep.quiet {link : Nat} {token : Token} {stage stage' : Pinging}
    (h : PingStep world link token l stage stage' k) : Quiet [] l k := by
  cases h with
  | begin => exact .refl l
  | leave | broken => exact .track ..
  | ping => exact .setLink ..

end ChatWire.Listener
