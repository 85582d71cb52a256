import ChatWire.Proofs.Listener.Story

/-! What goes on beside the chains. Few steps touch the token of the last chain, the count of the background tasks, or
the streams that are closed; and what is not a step of a task leaves alone all that chains rely on. -/

namespace ChatWire

theorem Mailbox.closed_publish {α : Type} (a : α) (m : Mailbox α) : (m.publish a).2.closed = m.closed := by
  unfold publish
  dsimp only
  split_ifs <;> rfl

theorem Events.closedFlags_publish (e : Event) (s : Events) : (s.publish e).closedFlags = s.closedFlags := by
  cases e <;> simp only [publish, closedFlags, Mailbox.closed_publish]

namespace Listener

/-- The token of the last chain, the count of the background tasks and the streams that are closed are as before. -/
structure Steady (l k : Listener) : Prop where
  parent : k.parent = l.parent
  tracker : k.tracker = l.tracker
  flags : k.events.closedFlags = l.events.closedFlags

variable {world : Surroundings} {parent : Token} {l k : Listener}

namespace Steady

theorem refl (l : Listener) : Steady l l := ⟨rfl, rfl, rfl⟩

theorem publish (e : Event) (l : Listener) : Steady l (l.publish e) := ⟨rfl, rfl, Events.closedFlags_publish e l.events⟩

theorem stepClosing {link : Nat} {info : CloseInfo} {stage stage' : Transport.Closing}
    (h : l.stepClosing link info stage = some (stage', k)) : Steady l k := by
  simp only [Listener.stepClosing, Option.bind_eq_bind, Option.bind_eq_some_iff, Option.some.injEq] at h
  obtain ⟨t, -, ⟨s, t'⟩, -, heq⟩ := h
  cases heq
  exact ⟨rfl, rfl, rfl⟩

theorem install (parent : Token) (link : Nat) (l : Listener) : Steady l (l.install parent link) := by
  unfold Listener.install
  split <;> exact ⟨rfl, rfl, rfl⟩

theorem drop (l : Listener) : Steady l l.drop := by
  unfold Listener.drop
  cases l.connection <;> exact ⟨rfl, rfl, rfl⟩

theorem rekey (key : CipherKey) (c : Connection) (l : Listener) : Steady l (l.rekey key c).2 := by
  unfold Listener.rekey
  cases c.keepalive <;> by_cases hp : l.session.settings.pingInterval = 0 <;> simp only [Listener.cancel, hp] <;>
    exact ⟨rfl, rfl, rfl⟩

theorem handle (link : Nat) (b : Bytes) (l : Listener) : Steady l (l.handle link b).2 := by
  unfold Listener.handle
  cases Reaction.ofBytes b with
  | rekey key =>
    cases l.connection with
    | none => exact refl l
    | some c => exact rekey key c l
  | _ => exact refl l

end Steady

theorem DialingStep.steady {d d' : Dialing} (h : DialingStep world parent l d d' k) : Steady l k := by
  cases h with
  | nowhere | noUrl | dial | refused | opened | abandon | keep | abandoned => exact ⟨rfl, rfl, rfl⟩
  | install => exact .install ..
  | announce => exact .publish ..
  | close hclosing => exact .stepClosing hclosing

/-! The steps that are not steady. -/

def Chain.isSteady : Chain → Bool
  | .publishing _ [] (some _) | .finishing _ .closeStreams | .finishing _ .cancel => false
  | _ => true

def Starting.isSteady : Starting → Bool
  | .claim | .reopenTracker | .reopenStreams | .spawning _ => false
  | _ => true

/-- Whether the next step of a task leaves that as it is, and starts no other. -/
def Work.isSteady : Work → Bool
  | .start _ _ stage => stage.isSteady
  | .stop stage => stage != .seal
  | .chain _ stage => stage.isSteady
  | .keepalive _ _ stage => stage == .starting

theorem ChainStep.steady {chain chain' : Chain} (h : ChainStep world parent l chain chain' k)
    (hsteady : chain.isSteady) : Steady l k ∧ k.work = l.work := by
  cases h with
  | beginPing | closeStreams | finish => cases hsteady
  | publish | announce | exhausted | complain | farewell => exact ⟨.publish .., rfl⟩
  | @handle link b _ _ hhandle =>
    have hemits := handle_emits link b l
    have hsteady := Steady.handle link b l
    rw [hhandle] at hemits hsteady
    exact ⟨hsteady, hemits.work.trans (List.append_nil _)⟩
  | yield hclosing | stop hclosing => exact ⟨.stepClosing hclosing, (Quiet.stepClosing hclosing).work⟩
  | drop => exact ⟨.drop l, (drop_emits l).work.trans (List.append_nil _)⟩
  | dial hd =>
    obtain ⟨es, hemits, -⟩ := hd.emits
    exact ⟨hd.steady, hemits.work.trans (List.append_nil _)⟩
  | _ => exact ⟨⟨rfl, rfl, rfl⟩, rfl⟩

theorem StartStep.steady {token : Token} {retryOnClose : Bool} {stage stage' : Starting}
    (h : StartStep world token retryOnClose l stage stage' k) (hsteady : stage.isSteady) :
    Steady l k ∧ k.work = l.work := by
  cases h with
  | claim | refuse | reopenTracker | reopenStreams | spawn => cases hsteady
  | dial hd =>
    obtain ⟨es, hemits, -⟩ := hd.emits
    exact ⟨hd.steady, hemits.work.trans (List.append_nil _)⟩
  | _ => exact ⟨⟨rfl, rfl, rfl⟩, rfl⟩

theorem StopStep.steady {stage stage' : Stopping} (h : StopStep l stage stage' k) (hsteady : stage ≠ .seal) :
    Steady l k := by
  cases h with
  | shut => exact absurd rfl hsteady
  | close hclosing => exact .stepClosing hclosing
  | _ => exact ⟨rfl, rfl, rfl⟩

theorem WorkStep.steady {w w' : Work} (h : WorkStep world l w w' k) (hsteady : w.isSteady) :
    Steady l k ∧ k.work = l.work := by
  cases h with
  | start hs => exact hs.steady hsteady
  | stop hs => exact ⟨hs.steady (bne_iff_ne.1 hsteady), hs.quiet.work⟩
  | chain hs => exact hs.steady hsteady
  | keepalive hs =>
    cases hs with
    | begin => exact ⟨.refl l, rfl⟩
    | leave | broken | ping => cases hsteady

/-! The moves that are not steps of tasks. -/

/-- Nothing happens to a chain. -/
structure Still (l k : Listener) : Prop extends Steady l k, Rests l k where
  held : k.held = l.held

theorem Still.same (hparent : k.parent = l.parent) (htracker : k.tracker = l.tracker) (hevents : k.events = l.events)
    (hrests : Rests l k) (hheld : k.held = l.held) : Still l k where
  parent := hparent
  tracker := htracker
  flags := congrArg Events.closedFlags hevents
  toRests := hrests
  held := hheld

theorem step_still {m : Move} (h : l.step world m = some k) (hm : ∀ n c, m ≠ .work n c) : Still l k := by
  cases m with
  | work n c => exact absurd rfl (hm n c)
  | reader | writer =>
    simp only [step, Option.bind_eq_bind, Option.bind_eq_some_iff, Option.some.injEq] at h
    obtain ⟨t, -, t', -, rfl⟩ := h
    exact .same rfl rfl rfl ⟨⟨rfl, rfl, rfl⟩, rfl, rfl, rfl⟩ rfl
  | send header data stamp =>
    cases Option.some.inj h
    have hheld := (Quiet.send header data stamp l).held
    obtain ⟨connection, links, heq, -⟩ := Keeps.send header data stamp l
    rw [heq] at hheld ⊢
    exact .same rfl rfl rfl ⟨⟨rfl, rfl, rfl⟩, rfl, rfl, rfl⟩ hheld
  | _ =>
    cases Option.some.inj h
    exact .same rfl rfl rfl ⟨⟨rfl, rfl, rfl⟩, rfl, rfl, rfl⟩ rfl

/-! Runs on which more is asked of each step. -/

/-- Runs of which each step is as `allowed` says. -/
inductive Within (world : Surroundings) (allowed : Listener → Listener → Prop) : Listener → Listener → Prop
  | refl (l : Listener) : Within world allowed l l
  | step {l k j : Listener} {m : Move} : Within world allowed l k → k.step world m = some j → allowed k j →
      Within world allowed l j

theorem Within.trans {allowed : Listener → Listener → Prop} {j : Listener} (h : Within world allowed l k)
    (h' : Within world allowed k j) : Within world allowed l j := by
  induction h' with
  | refl => exact h
  | step _ hstep hallowed ih => exact ih.step hstep hallowed

theorem Within.noted {allowed : Listener → Listener → Prop} {session : Session} {log : List Note}
    (h : Within world allowed l k) (hl : Noted world session log l) : ∃ log, Noted world session log k := by
  induction h with
  | refl => exact ⟨log, hl⟩
  | step _ hstep _ ih =>
    obtain ⟨log, hnoted⟩ := ih
    exact ⟨_, hnoted.step hstep⟩

/-- some moves, one after the other, each as `allowed` says -/
def playWithin (world : Surroundings) (allowed : Listener → Listener → Bool) : List Move → Listener → Option Listener
  | [], l => some l
  | m :: r, l =>
    match l.step world m with
    | some k => if allowed l k then playWithin world allowed r k else none
    | none => none

theorem within_playWithin {p : Listener → Listener → Prop} {allowed : Listener → Listener → Bool} {ms : List Move}
    {j : Listener} (hallowed : ∀ {l k}, allowed l k → p l k) (h : Within world p l k)
    (hplay : playWithin world allowed ms k = some j) : Within world p l j := by
  induction ms generalizing k with
  | nil =>
    cases Option.some.inj hplay
    exact h
  | cons m r ih =>
    rw [playWithin] at hplay
    split at hplay
    · next k' hstep =>
      split_ifs at hplay with hk
      exact ih (h.step hstep (hallowed hk)) hplay
    · cases hplay

end Listener

end ChatWire
