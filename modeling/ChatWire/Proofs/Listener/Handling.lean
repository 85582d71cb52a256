import ChatWire.Listener.Chain
import ChatWire.Proofs.Listener.Reaction
import ChatWire.Proofs.Listener.Streams

/-! Payloads handled one after the other, in the chain's own steps, and what each leaves behind: what it
publishes does not depend on what was published before. -/

namespace ChatWire

namespace Listener

section

variable {l : Listener} {b : Bytes} {t : Thread} {e : Envelope}

theorem handle_live (h : Reaction.ofBytes b = .live t e) (link : Nat) :
    l.handle link b = (.publishing link (batchEvents .messageBatch
      (Batch.liveEvents l.session.uid l.session.selfListen t) e l.cipherKey?) none, l) := by
  rw [handle, h]

theorem handle_backfill (h : Reaction.ofBytes b = .backfill t e) (link : Nat) :
    l.handle link b = (.publishing link (batchEvents .oldMessages
      (Batch.backfillEvents l.session.uid t) e l.cipherKey?) none, l) := by
  rw [handle, h]

end

variable (world : Surroundings) (parent : Token) (link : Nat)

/-- Whether a chain has something to do for a payload. -/
def Chain.isBusy : Chain → Bool
  | .handling .. | .publishing .. => true
  | _ => false

/-- The chain's own steps, as long as it is busy with a payload, up to its next look for one. -/
inductive Works : Chain → Listener → Listener → Prop
  | rest (l : Listener) : Works (.receiving link .cancelled) l l
  | step {a b : Chain} {l k m : Listener} : a.isBusy → l.stepChain world parent .proceed a = some (b, k) →
      Works b k m → Works a l m

/-- What becomes of a listener when payloads are handled one after the other. After a notice that another
connection has taken over, none is looked at. -/
inductive Handles : List Bytes → Listener → Listener → Prop
  | done (l : Listener) : Handles [] l l
  | next {b : Bytes} {r : List Bytes} {l k m : Listener} : Works world parent link (.handling link b) l k →
      Handles r k m → Handles (b :: r) l m
  | leave {b : Bytes} {r : List Bytes} {l k : Listener} :
      l.stepChain world parent .proceed (.handling link b) = some (.yielding link .request, k) → Handles (b :: r) l k

variable {world parent link}

theorem Works.unique {a : Chain} {l m n : Listener} (hm : Works world parent link a l m)
    (hn : Works world parent link a l n) : m = n := by
  induction hm with
  | rest l =>
    cases hn with
    | rest => rfl
    | step h => cases h
  | step h hstep _ ih =>
    cases hn with
    | rest => cases h
    | step _ hstep' hn =>
      obtain ⟨rfl, rfl⟩ := Prod.mk.inj (Option.some.inj (hstep.symm.trans hstep'))
      exact ih hn

/-- A chain that is about to close its connection does not look for a payload. -/
theorem Works.not_leave {b : Bytes} {l k m : Listener} (h : Works world parent link (.handling link b) l m) :
    l.stepChain world parent .proceed (.handling link b) ≠ some (.yielding link .request, k) := by
  intro hleave
  cases h with
  | step _ hstep hrest =>
    obtain ⟨rfl, rfl⟩ := Prod.mk.inj (Option.some.inj (hstep.symm.trans hleave))
    cases hrest with
    | step hbusy => cases hbusy

theorem Handles.unique {xs : List Bytes} {l m n : Listener} (hm : Handles world parent link xs l m)
    (hn : Handles world parent link xs l n) : m = n := by
  induction hm with
  | done l =>
    cases hn
    rfl
  | next hk _ ih =>
    cases hn with
    | next hk' hn =>
      obtain rfl := hk.unique hk'
      exact ih hn
    | leave hleave => exact absurd hleave hk.not_leave
  | leave hleave =>
    cases hn with
    | next hk => exact absurd hleave hk.not_leave
    | leave hleave' => exact (Prod.mk.inj (Option.some.inj (hleave.symm.trans hleave'))).2

/-! The same in closed form. -/

def publishAll (es : List Event) (l : Listener) : Listener := es.foldl (fun l e => l.publish e) l

theorem publishAll_eq (es : List Event) (l : Listener) : l.publishAll es =
    { l with events := es.foldl (fun s e => s.publish e) l.events, history := l.history ++ es } := by
  induction es generalizing l with
  | nil => simp [publishAll]
  | cons e r ih =>
    rw [publishAll, List.foldl_cons, ← publishAll, ih]
    simp [publish]

theorem takes_publishAll (es : List Event) (l : Listener) : Events.Takes es l.events (l.publishAll es).events := by
  rw [publishAll_eq]
  exact .foldl es l.events

/-- Begins to ping, if there is to be pinging. -/
def beginPing : Option (Nat × Token) → Listener → Listener
  | some (on, token), l => l.spawn (.keepalive on token .starting)
  | none, l => l

/-- What a payload leaves behind. -/
def absorb (link : Nat) (b : Bytes) (l : Listener) : Listener :=
  match l.handle link b with
  | (.publishing _ es ping, l) => (l.publishAll es).beginPing ping
  | (_, l) => l

/-- the events that a chain is about to publish -/
def Chain.owed : Chain → List Event
  | .publishing _ es _ => es
  | _ => []

/-- the events of a payload -/
def eventsOf (b : Bytes) (l : Listener) : List Event := (l.handle 0 b).1.owed

theorem works_publishing (es : List Event) (ping : Option (Nat × Token)) (l : Listener) :
    Works world parent link (.publishing link es ping) l ((l.publishAll es).beginPing ping) := by
  induction es generalizing l with
  | nil =>
    cases ping with
    | none => exact .step rfl rfl (.rest l)
    | some p => exact .step rfl rfl (.rest _)
  | cons e r ih => exact .step rfl rfl (ih (l.publish e))

/-- What handling leads to: closing the connection, nothing, or events. -/
theorem handle_cases (b : Bytes) (l : Listener) :
    (Reaction.IsDuplicate b ∧ ∀ link, l.handle link b = (.yielding link .request, l)) ∨
      (∃ k, ∀ link, l.handle link b = (.receiving link .cancelled, k)) ∨
      ∃ es ping k, ∀ link, l.handle link b = (.publishing link es ping, k) := by
  rw [← Reaction.ofBytes_eq_leave_iff]
  unfold handle
  cases Reaction.ofBytes b with
  | leave => exact .inl ⟨rfl, fun _ => rfl⟩
  | ignore => exact .inr (.inl ⟨l, fun _ => rfl⟩)
  | report e => exact .inr (.inr ⟨_, _, _, fun _ => rfl⟩)
  | live t e => exact .inr (.inr ⟨_, _, _, fun _ => rfl⟩)
  | backfill t e => exact .inr (.inr ⟨_, _, _, fun _ => rfl⟩)
  | rekey key =>
    cases l.connection with
    | none => exact .inr (.inl ⟨l, fun _ => rfl⟩)
    | some c => exact .inr (.inr ⟨_, _, _, fun _ => rfl⟩)

theorem handle_stage {b : Bytes} {l k : Listener} {stage : Chain} (h : l.handle link b = (stage, k)) :
    stage = .yielding link .request ∨ stage = .receiving link .cancelled ∨
      ∃ es ping, stage = .publishing link es ping := by
  rcases handle_cases b l with ⟨-, hl⟩ | ⟨m, hl⟩ | ⟨es, ping, m, hl⟩ <;> cases (hl link).symm.trans h
  · exact .inl rfl
  · exact .inr (.inl rfl)
  · exact .inr (.inr ⟨es, ping, rfl⟩)

theorem works_handling {b : Bytes} (hb : ¬ Reaction.IsDuplicate b) (l : Listener) :
    Works world parent link (.handling link b) l (l.absorb link b) := by
  rcases handle_cases b l with ⟨hdup, -⟩ | ⟨k, h⟩ | ⟨es, ping, k, h⟩
  · exact absurd hdup hb
  · have hstep : l.stepChain world parent .proceed (.handling link b) = some (.receiving link .cancelled, k) :=
      congrArg some (h link)
    rw [absorb, h link]
    exact .step rfl hstep (.rest k)
  · have hstep : l.stepChain world parent .proceed (.handling link b) = some (.publishing link es ping, k) :=
      congrArg some (h link)
    rw [absorb, h link]
    exact .step rfl hstep (works_publishing es ping k)

/-- What some payloads leave behind. -/
def absorbAll (link : Nat) (xs : List Bytes) (l : Listener) : Listener := xs.foldl (fun l b => l.absorb link b) l

def eventsOfAll (link : Nat) : List Bytes → Listener → List Event
  | [], _ => []
  | b :: r, l => l.eventsOf b ++ eventsOfAll link r (l.absorb link b)

theorem stepChain_duplicate {b : Bytes} (hb : Reaction.IsDuplicate b) (l : Listener) :
    l.stepChain world parent .proceed (.handling link b) = some (.yielding link .request, l) := by
  have hleave : Reaction.ofBytes b = .leave := Reaction.ofBytes_eq_leave_iff.2 hb
  simp only [stepChain, handle, hleave]

theorem handles_append {xs ys : List Bytes} (h : ∀ x ∈ xs, ¬ Reaction.IsDuplicate x) {l m : Listener}
    (hys : Handles world parent link ys (l.absorbAll link xs) m) : Handles world parent link (xs ++ ys) l m := by
  induction xs generalizing l with
  | nil => exact hys
  | cons b r ih =>
    obtain ⟨hb, hr⟩ := List.forall_mem_cons.1 h
    exact .next (works_handling hb l) (ih hr hys)

theorem handles_absorbAll {xs : List Bytes} (h : ∀ x ∈ xs, ¬ Reaction.IsDuplicate x) (l : Listener) :
    Handles world parent link xs l (l.absorbAll link xs) := by
  have hall : Handles world parent link (xs ++ []) l (l.absorbAll link xs) := handles_append h (.done _)
  rwa [List.append_nil] at hall

/-- Of all payloads, those before the first notice are handled. -/
theorem exists_handles (world : Surroundings) (parent : Token) (link : Nat) (xs : List Bytes) :
    ∃ heeded, heeded <+: xs ∧ ∀ l, Handles world parent link xs l (l.absorbAll link heeded) := by
  induction xs with
  | nil => exact ⟨[], List.nil_prefix, fun l => .done l⟩
  | cons b r ih =>
    obtain ⟨heeded, hprefix, hhandles⟩ := ih
    by_cases hb : Reaction.IsDuplicate b
    · exact ⟨[], List.nil_prefix, fun l => .leave (stepChain_duplicate hb l)⟩
    · exact ⟨b :: heeded, List.cons_prefix_cons.2 ⟨rfl, hprefix⟩, fun l => .next (works_handling hb l) (hhandles _)⟩

/-! Handling looks neither at the streams nor at what went through them. -/

section

variable (s : Events) (h : List Event)

/-- the listener with other streams and another past -/
def withPast (l : Listener) : Listener := { l with events := s, history := h }

theorem rekey_withPast (key : CipherKey) (c : Connection) (l : Listener) :
    (l.withPast s h).rekey key c = ((l.rekey key c).1, (l.rekey key c).2.withPast s h) := by
  unfold rekey
  cases c.keepalive <;> by_cases hp : l.session.settings.pingInterval = 0 <;>
    simp only [withPast, cancel, hp, if_true, if_false]

theorem handle_withPast (b : Bytes) (l : Listener) :
    (l.withPast s h).handle link b = ((l.handle link b).1, (l.handle link b).2.withPast s h) := by
  unfold handle
  cases Reaction.ofBytes b with
  | rekey key =>
    have hconn : (l.withPast s h).connection = l.connection := rfl
    simp only [hconn]
    cases l.connection with
    | none => rfl
    | some c => simp only [rekey_withPast]
  | _ => rfl

theorem absorb_withPast (b : Bytes) (l : Listener) :
    (l.withPast s h).absorb link b =
      (l.absorb link b).withPast ((l.eventsOf b).foldl (fun s e => s.publish e) s) (h ++ l.eventsOf b) := by
  simp only [absorb, eventsOf, handle_withPast]
  rcases handle_cases b l with ⟨-, hl⟩ | ⟨k, hl⟩ | ⟨es, ping, k, hl⟩
  · simp only [hl, Chain.owed, List.foldl_nil, List.append_nil]
  · simp only [hl, Chain.owed, List.foldl_nil, List.append_nil]
  · simp only [hl, Chain.owed, publishAll_eq]
    cases ping <;> rfl

theorem eventsOf_withPast (b : Bytes) (l : Listener) : (l.withPast s h).eventsOf b = l.eventsOf b := by
  simp only [eventsOf, handle_withPast]

theorem absorbAll_withPast (xs : List Bytes) (l : Listener) :
    (l.withPast s h).absorbAll link xs = (l.absorbAll link xs).withPast
      ((l.eventsOfAll link xs).foldl (fun s e => s.publish e) s) (h ++ l.eventsOfAll link xs) := by
  induction xs generalizing s h l with
  | nil => simp only [absorbAll, eventsOfAll, List.foldl_nil, List.append_nil]
  | cons b r ih =>
    rw [absorbAll, List.foldl_cons, ← absorbAll, absorb_withPast, ih, eventsOfAll, List.foldl_append,
      List.append_assoc]
    rfl

theorem eventsOfAll_withPast (xs : List Bytes) (l : Listener) :
    (l.withPast s h).eventsOfAll link xs = l.eventsOfAll link xs := by
  induction xs generalizing s h l with
  | nil => rfl
  | cons b r ih => rw [eventsOfAll, eventsOfAll, eventsOf_withPast, absorb_withPast, ih]

end

theorem history_absorbAll (xs : List Bytes) (l : Listener) :
    (l.absorbAll link xs).history = l.history ++ l.eventsOfAll link xs :=
  congrArg history (absorbAll_withPast l.events l.history xs l)

theorem events_absorbAll (xs : List Bytes) (l : Listener) :
    (l.absorbAll link xs).events = (l.eventsOfAll link xs).foldl (fun s e => s.publish e) l.events :=
  congrArg events (absorbAll_withPast l.events l.history xs l)

theorem takes_absorbAll (xs : List Bytes) (l : Listener) :
    Events.Takes (l.eventsOfAll link xs) l.events (l.absorbAll link xs).events := by
  rw [events_absorbAll]
  exact .foldl (l.eventsOfAll link xs) l.events

/-! A listener to try things on. -/

/-- a session with nothing that is not needed -/
def plainSession (uid : String) (selfListen : Bool) : Session where
  uid
  imei := ""
  secretKey := ""
  userAgent := ""
  language := ""
  apiType := 1
  apiVersion := 1
  jar := .empty
  settings := .none
  endpoints := []
  selfListen

/-- a listener that holds a connection without a key -/
def plainListener (uid : String) (selfListen : Bool) : Listener :=
  { create (plainSession uid selfListen) with
    phase := .connected, connection := some ⟨0, none, 0, ⟨[0]⟩, none⟩ }

end Listener

end ChatWire
