import ChatWire.Proofs.Mailbox.Steps
import ChatWire.Proofs.Task.Record

/-! What becomes of the events of a stream. Each is handed out once, is still buffered, or was given up, and none
is given up but the oldest one of a full stream. -/

namespace ChatWire.Reception

open Mailbox (Receiving ReceiveStep)
open scoped List

variable {α : Type} {capacity : Nat} {m : Move α} {s k : Reception α}

/-! Notes of a run. -/

/-- What those who use a stream see of a move: an event is published, with the answer to that, an event is handed to
somebody, or all that is buffered is shown. -/
inductive Passage (α : Type)
  | published (event : α) (answer : Outcome)
  | received (event : α)
  | shown (events : List α)

/-- what is noted of a move from `s` to `k` -/
def passages (m : Move α) (s k : Reception α) : List (Passage α) :=
  match m with
  | .publish a => [.published a (s.publish a).1]
  | .take => s.take?.1.toList.map .received
  | .go id => ((k.stage? id).bind Receiving.result?).join.toList.map .received
  | .snapshot => [.shown s.box.snapshot]
  | _ => []

def Passage.published? : Passage α → Option α
  | .published a _ => some a
  | _ => none

def Passage.received? : Passage α → Option α
  | .received a => some a
  | _ => none

/-- all events that were published, in order -/
def published (log : List (Passage α)) : List α := log.filterMap Passage.published?

/-- all events that were handed to somebody, in order -/
def received (log : List (Passage α)) : List α := log.filterMap Passage.received?

theorem published_append (a b : List (Passage α)) : published (a ++ b) = published a ++ published b :=
  List.filterMap_append

theorem received_append (a b : List (Passage α)) : received (a ++ b) = received a ++ received b :=
  List.filterMap_append

theorem published_received (as : List α) : published (as.map .received) = [] := by
  rw [published, List.filterMap_map]
  exact List.filterMap_eq_nil_iff.2 fun _ _ => rfl

theorem received_received (as : List α) : received (as.map .received) = as := by
  rw [received, List.filterMap_map]
  exact List.filterMap_some

/-! What a move does to the events. -/

/-- The events `lost` in a move: none, the oldest one when something is published to a full stream, or the published
one itself where there is no capacity. -/
inductive Loses (m : Move α) (s : Reception α) : List α → Prop
  | nothing : (∀ a, m = .publish a → (s.publish a).1 = .delivered) → Loses m s []
  | oldest {a old : α} {rest : List α} : m = .publish a → (s.publish a).1 = .droppedOldest →
      s.box.buffer = old :: rest → s.box.buffer.length = s.box.capacity → Loses m s [old]
  | newest {a : α} : m = .publish a → (s.publish a).1 = .droppedNewest → s.box.buffer = [] → s.box.capacity = 0 →
      Loses m s [a]

/-- `come` has gone in behind what was buffered, and `lost` and then `gone` have come out in front. -/
structure Flows (s k : Reception α) (come lost gone : List α) : Prop where
  events : s.box.buffer ++ come = lost ++ gone ++ k.box.buffer
  dropped : k.box.dropped = s.box.dropped + lost.length
  capacity : k.box.capacity = s.box.capacity
  room : s.box.buffer.length ≤ s.box.capacity → k.box.buffer.length ≤ s.box.capacity

theorem Loses.delivered_iff {lost : List α} {a : α} (h : Loses (.publish a) s lost) :
    (s.publish a).1 = .delivered ↔ lost = [] := by
  cases h with
  | nothing hdelivered => exact iff_of_true (hdelivered a rfl) rfl
  | oldest heq hanswer | newest heq hanswer =>
    cases heq
    rw [hanswer]
    exact iff_of_false nofun nofun

/-- Nothing is lost of what only goes out. -/
theorem flows_out {gone : List α} (hevents : s.box.buffer = gone ++ k.box.buffer)
    (hdropped : k.box.dropped = s.box.dropped) (hcapacity : k.box.capacity = s.box.capacity) : Flows s k [] [] gone where
  events := by rw [List.append_nil, List.nil_append, hevents]
  dropped := hdropped
  capacity := hcapacity
  room hle := by
    rw [hevents, List.length_append] at hle
    omega

theorem publish_flows (a : α) (h : s.box.buffer.length ≤ s.box.capacity) :
    ∃ lost, Loses (.publish a) s lost ∧ Flows s (s.publish a).2 [a] lost [] := by
  have hroom (hle : s.box.buffer.length ≤ s.box.capacity) : (s.publish a).2.box.buffer.length ≤ s.box.capacity :=
    Mailbox.length_publish_le a hle
  by_cases hlt : s.box.buffer.length < s.box.capacity
  · have hanswer : (s.publish a).1 = .delivered := by simp [publish, Mailbox.publish, hlt]
    refine ⟨[], .nothing fun b hb => ?_, ?_, ?_, ?_, hroom⟩
    · cases hb
      exact hanswer
    all_goals simp [publish, Mailbox.publish, hlt]
  · have hfull : s.box.buffer.length = s.box.capacity := by omega
    cases hbuffer : s.box.buffer with
    | nil =>
      have hzero : s.box.capacity = 0 := by rw [← hfull, hbuffer, List.length_nil]
      refine ⟨[a], .newest rfl ?_ hbuffer hzero, ?_, ?_, ?_, hroom⟩ <;>
        simp [publish, Mailbox.publish, hbuffer, hzero]
    | cons old rest =>
      -- Once the oldest event is out there is room for the new one.
      have hlength : s.box.capacity = rest.length + 1 := by rw [← hfull, hbuffer, List.length_cons]
      refine ⟨[old], .oldest rfl ?_ hbuffer hfull, ?_, ?_, ?_, hroom⟩ <;>
        simp [publish, Mailbox.publish, hbuffer, hlength]

theorem take_flows (s : Reception α) : Flows s s.take?.2 [] [] s.take?.1.toList := by
  refine flows_out (Mailbox.buffer_take? s.box).symm (Mailbox.dropped_take? s.box) ?_
  simp only [take?, Mailbox.take?]
  split <;> rfl

/-- A receiver that goes on takes the oldest event, or nothing. -/
theorem go_flows {id : Nat} (h : s.go id = some k) :
    Flows s k [] [] ((k.stage? id).bind Receiving.result?).join.toList := by
  obtain ⟨r, r', box, hr, hstep, rfl⟩ := go_cases h
  rw [stage?_goOn hr, if_pos rfl]
  cases hstep with
  | take hbuffer => exact flows_out hbuffer rfl rfl
  | miss | join | release | rest | heed => exact flows_out rfl rfl rfl

/-- What each move brings in, loses and hands out. -/
theorem step_flows (h : step m s = some k) (hle : s.box.buffer.length ≤ s.box.capacity) :
    ∃ lost, Loses m s lost ∧ Flows s k (published (passages m s k)) lost (received (passages m s k)) := by
  cases m with
  | publish a =>
    cases Option.some.inj h
    exact publish_flows a hle
  | take =>
    cases Option.some.inj h
    refine ⟨[], .nothing nofun, ?_⟩
    rw [passages, published_received, received_received]
    exact take_flows s
  | go id =>
    refine ⟨[], .nothing nofun, ?_⟩
    rw [passages, published_received, received_received]
    exact go_flows h
  | ask | leave | close | reopen | snapshot =>
    cases Option.some.inj h
    exact ⟨[], .nothing nofun, flows_out rfl rfl rfl⟩

/-! What holds at every point. -/

/-- The accounts of a stream after a run. -/
structure Balanced (capacity : Nat) (log : List (Passage α)) (s : Reception α) : Prop where
  capacity_eq : s.box.capacity = capacity
  room : s.box.buffer.length ≤ capacity
  count : (published log).length = (received log).length + s.box.buffer.length + s.box.dropped
  order : received log ++ s.box.buffer <+ published log
  newest : s.box.buffer <:+ published log

theorem balanced_empty (capacity : Nat) : Balanced capacity [] (empty capacity : Reception α) :=
  ⟨rfl, Nat.zero_le _, rfl, .slnil, List.suffix_refl _⟩

theorem Balanced.step {log new : List (Passage α)} {lost : List α} (h : Balanced capacity log s)
    (hflows : Flows s k (published new) lost (received new)) : Balanced capacity (log ++ new) k where
  capacity_eq := hflows.capacity.trans h.capacity_eq
  room := h.capacity_eq ▸ hflows.room (h.capacity_eq.symm ▸ h.room)
  count := by
    have hlength := congrArg List.length hflows.events
    simp only [List.length_append] at hlength
    rw [published_append, received_append, List.length_append, List.length_append, hflows.dropped]
    have := h.count
    omega
  order := by
    rw [published_append, received_append, List.append_assoc]
    calc received log ++ (received new ++ k.box.buffer)
      _ <+ received log ++ (lost ++ received new ++ k.box.buffer) := by
        rw [List.append_assoc lost]
        exact (List.sublist_append_right lost _).append_left _
      _ = received log ++ s.box.buffer ++ published new := by rw [← hflows.events, List.append_assoc]
      _ <+ published log ++ published new := h.order.append_right _
  newest := by
    rw [published_append]
    calc k.box.buffer
      _ <:+ s.box.buffer ++ published new := hflows.events ▸ List.suffix_append ..
      _ <:+ published log ++ published new := by
        obtain ⟨before, hbefore⟩ := h.newest
        exact ⟨before, by rw [← hbefore, List.append_assoc]⟩

theorem balanced_of_recorded {log : List (Passage α)} (h : Schedule.Recorded step passages (empty capacity) log s) :
    Balanced capacity log s := by
  induction h with
  | start => exact balanced_empty capacity
  | step _ hstep ih =>
    obtain ⟨lost, -, hflows⟩ := step_flows hstep (ih.capacity_eq.symm ▸ ih.room)
    exact ih.step hflows

/-- At every point of a run a stream holds no more than its capacity, namely the last events that were published; with
those it has handed out, in order, they are a part of what was published, and with the count of those it gave up they
are all. A move loses an event only if it publishes to a full stream: the oldest one, or without any capacity the
published one; and whether it did is what publishing answers. To close a stream, to open it again and to look at what
is buffered loses nothing. -/
theorem events_are_accounted_for {log : List (Passage α)}
    (h : Schedule.Recorded step passages (empty capacity) log s) :
    s.box.buffer.length ≤ capacity ∧
      (published log).length = (received log).length + s.box.buffer.length + s.box.dropped ∧
      received log ++ s.box.buffer <+ published log ∧
      s.box.buffer = (published log).drop ((published log).length - s.box.buffer.length) ∧
      ∀ {m k}, step m s = some k →
        (∃ lost, Loses m s lost ∧
          s.box.buffer ++ published (passages m s k) = lost ++ received (passages m s k) ++ k.box.buffer ∧
          k.box.dropped = s.box.dropped + lost.length ∧
          ∀ a, m = .publish a → ((s.publish a).1 = .delivered ↔ lost = [])) ∧
        (m = .close ∨ m = .reopen → k.box.buffer = s.box.buffer ∧ k.box.dropped = s.box.dropped) ∧
        (m = .snapshot → k = s ∧ passages m s k = [.shown s.box.buffer]) := by
  have hbalanced := balanced_of_recorded h
  refine ⟨hbalanced.room, hbalanced.count, hbalanced.order, List.suffix_iff_eq_drop.1 hbalanced.newest, ?_⟩
  intro m k hstep
  refine ⟨?_, ?_, ?_⟩
  · obtain ⟨lost, hloses, hflows⟩ := step_flows hstep (hbalanced.capacity_eq.symm ▸ hbalanced.room)
    refine ⟨lost, hloses, hflows.events, hflows.dropped, ?_⟩
    rintro a rfl
    exact hloses.delivered_iff
  · rintro (rfl | rfl) <;> cases Option.some.inj hstep <;> exact ⟨rfl, rfl⟩
  · rintro rfl
    cases Option.some.inj hstep
    exact ⟨rfl, rfl⟩

/-- one event is lost to the next, which a receiver takes before the stream is closed and opened again -/
def lossyMoves : List (Move Nat) :=
  [.publish 1, .snapshot, .publish 2, .ask, .go 0, .go 0, .close, .reopen, .publish 3]

/-- A stream of one place that is full and published to. -/
theorem events_are_accounted_for_full :
    ∃ log s k, Schedule.Recorded step passages (empty 1 : Reception Nat) log s ∧ step (.publish 4) s = some k ∧
      (published log).length = (received log).length + s.box.buffer.length + s.box.dropped ∧
      ∃ lost, Loses (.publish 4) s lost ∧ lost = [3] ∧
        s.box.buffer ++ published (passages (.publish 4) s k) =
          lost ++ received (passages (.publish 4) s k) ++ k.box.buffer := by
  have hran : (Schedule.record step passages lossyMoves ([], (empty 1 : Reception Nat))).any fun r =>
      decide (r.2.box.buffer = [3] ∧ r.2.box.capacity = 1) := by decide +kernel
  obtain ⟨log, s, hrun, hfull⟩ := Schedule.exists_recorded hran
  obtain ⟨hbuffer, hcapacity⟩ : s.box.buffer = [3] ∧ s.box.capacity = 1 := of_decide_eq_true hfull
  obtain ⟨-, hcount, -, -, hsteps⟩ := events_are_accounted_for hrun
  obtain ⟨⟨lost, hloses, hevents, -, -⟩, -⟩ := hsteps (m := .publish 4) rfl
  refine ⟨log, s, _, hrun, rfl, hcount, lost, hloses, ?_, hevents⟩
  cases hloses with
  | nothing hdelivered => simp [publish, Mailbox.publish, hbuffer, hcapacity] at hdelivered
  | oldest _ _ hold =>
    rw [hbuffer] at hold
    rw [(List.cons.inj hold).1]
  | newest _ _ hempty =>
    rw [hbuffer] at hempty
    cases hempty

end ChatWire.Reception
