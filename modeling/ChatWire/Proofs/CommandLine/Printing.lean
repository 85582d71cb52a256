import ChatWire.CommandLine.Printing
import ChatWire.Proofs.Task.Record

/-! What is printed of what a listener makes public. In every run each stream is printed in its order, and whatever was
not printed is still there; but a run ends with the closing whatever else is there. -/

namespace ChatWire.CommandLine

open Schedule (Reaches)

/-- the stream that an event is published to -/
def streamOf : Event → Stream
  | .connected _ => .connected
  | .disconnected _ => .disconnected
  | .closed _ => .closed
  | .error _ => .error
  | .message _ => .message
  | .undo _ => .undo
  | .cipherKey _ => .cipherKey
  | .oldMessages _ => .oldMessages

/-- what a stream holds, oldest first -/
def buffered (e : Events) : Stream → List Event
  | .connected => e.connected.buffer.map .connected
  | .disconnected => e.disconnected.buffer.map .disconnected
  | .message => e.message.buffer.map .message
  | .undo => e.undo.buffer.map .undo
  | .oldMessages => e.oldMessages.buffer.map .oldMessages
  | .cipherKey => e.cipherKey.buffer.map .cipherKey
  | .error => e.error.buffer.map .error
  | .closed => e.closed.buffer.map .closed

/-- those of some events that were published to a stream -/
def ofStream (s : Stream) (l : List Event) : List Event := l.filter (streamOf · = s)

variable {e : Events} {s : Stream} {x : Event}

theorem isClosing_iff : isClosing x ↔ streamOf x = .closed := by cases x <;> simp [isClosing, streamOf]

theorem streamOf_of_mem (h : x ∈ buffered e s) : streamOf x = s := by
  cases s <;> obtain ⟨_, -, rfl⟩ := List.mem_map.1 h <;> rfl

theorem ofStream_append (l k : List Event) : ofStream s (l ++ k) = ofStream s l ++ ofStream s k := List.filter_append ..

theorem ofStream_self (x : Event) : ofStream (streamOf x) [x] = [x] := by simp [ofStream]

theorem ofStream_other (h : streamOf x ≠ s) : ofStream s [x] = [] := by simp [ofStream, h]

/-! Taking the oldest event of a stream leaves the others as they are. -/

theorem takeFrom_of_nil (h : buffered e s = []) : takeFrom e s = none := by
  cases s <;>
  · have hbuffer := List.map_eq_nil_iff.1 h
    simp only [takeFrom, take, Mailbox.take?, hbuffer]

theorem takeFrom_of_cons {rest : List Event} (h : buffered e s = x :: rest) :
    ∃ e', takeFrom e s = some (x, e') ∧ buffered e' s = rest ∧ ∀ t, t ≠ s → buffered e' t = buffered e t := by
  cases s <;>
  · obtain ⟨a, r, hbuffer, rfl, rfl⟩ := List.map_eq_cons_iff.1 h
    simp only [takeFrom, take, Mailbox.take?, hbuffer]
    refine ⟨_, rfl, rfl, fun t ht => ?_⟩
    cases t <;> first | rfl | exact absurd rfl ht

theorem takeFrom_eq_none_iff : takeFrom e s = none ↔ buffered e s = [] := by
  refine ⟨fun h => ?_, takeFrom_of_nil⟩
  cases hbuffered : buffered e s with
  | nil => rfl
  | cons x rest =>
    obtain ⟨e', htake, -⟩ := takeFrom_of_cons hbuffered
    rw [htake] at h
    cases h

/-- Whether `x` is what `e` would give up next of its stream, and `e'` is what is left. -/
structure Taken (e : Events) (x : Event) (e' : Events) : Prop where
  own : buffered e (streamOf x) = x :: buffered e' (streamOf x)
  others : ∀ t, t ≠ streamOf x → buffered e' t = buffered e t

theorem taken_of_takeFrom {e' : Events} (h : takeFrom e s = some (x, e')) : streamOf x = s ∧ Taken e x e' := by
  cases hbuffered : buffered e s with
  | nil =>
    rw [takeFrom_of_nil hbuffered] at h
    cases h
  | cons y rest =>
    obtain ⟨e'', htake, hown, hothers⟩ := takeFrom_of_cons hbuffered
    rw [htake] at h
    cases h
    have hstream : streamOf x = s := streamOf_of_mem (hbuffered ▸ List.mem_cons_self ..)
    exact ⟨hstream, by rw [hstream, hbuffered, hown], hstream ▸ hothers⟩

/-- Every stream holds an event that is taken, if it is its own, and then the rest. -/
theorem Taken.buffered_eq {e' : Events} (h : Taken e x e') (s : Stream) :
    buffered e s = ofStream s [x] ++ buffered e' s := by
  by_cases hs : streamOf x = s
  · subst hs
    rw [h.own, ofStream_self, List.singleton_append]
  · rw [ofStream_other hs, List.nil_append, h.others s (Ne.symm hs)]

/-- how many events there are in all streams together -/
def total (e : Events) : Nat := (Stream.all.map fun s => (buffered e s).length).sum

theorem Taken.total_eq {e' : Events} (h : Taken e x e') : total e = total e' + 1 := by
  have hlength (s : Stream) : (buffered e s).length = (ofStream s [x]).length + (buffered e' s).length := by
    rw [h.buffered_eq s, List.length_append]
  have hone : (Stream.all.map fun s => (ofStream s [x]).length).sum = 1 := by cases x <;> rfl
  rw [total, List.map_congr_left fun s _ => hlength s, List.sum_map_add, hone, Nat.add_comm, total]

namespace Printing

def start (e : Events) : Printing := ⟨e, [], false⟩

/-- Whether none of some events is that of a closing. -/
def Open (l : List Event) : Prop := ∀ x ∈ l, ¬ isClosing x

variable {p q : Printing} {info : CloseInfo} {log : List Event}

theorem open_nil : Open [] := List.forall_mem_nil _

theorem Open.ofStream_closed (h : Open log) : ofStream .closed log = [] :=
  List.filter_eq_nil_iff.2 fun x hx => by simpa [isClosing_iff] using h x hx

theorem Open.append_one (h : Open log) (hx : ¬ isClosing x) : Open (log ++ [x]) :=
  List.forall_mem_append.2 ⟨h, List.forall_mem_singleton.2 hx⟩

/-- What a move does: it prints an event that is taken, or gives up when there is none. -/
theorem step_cases {m : Move} (h : step m p = some q) : p.finished = false ∧
    ((∃ x e', Taken p.events x e' ∧ q = ⟨e', p.printed ++ [x], isClosing x⟩) ∨
      ((∀ s, buffered p.events s = []) ∧ q = { p with finished := true })) := by
  cases m with
  | print s =>
    rw [step, print] at h
    split at h
    · cases h
    · next hfinished =>
      obtain ⟨⟨x, e'⟩, htake, rfl⟩ := Option.map_eq_some_iff.1 h
      exact ⟨Bool.eq_false_iff.2 hfinished, .inl ⟨x, e', (taken_of_takeFrom htake).2, rfl⟩⟩
  | quit =>
    rw [step, quit] at h
    split at h
    · next hquit =>
      simp only [Bool.and_eq_true, Bool.not_eq_true', List.all_eq_true, Option.isNone_iff_eq_none,
        takeFrom_eq_none_iff] at hquit
      obtain ⟨⟨hfinished, -⟩, hempty⟩ := hquit
      exact ⟨hfinished, .inr ⟨fun s => hempty s (by cases s <;> decide), (Option.some.inj h).symm⟩⟩
    · cases h

/-- The oldest event of any stream may come next. -/
theorem exists_step {rest : List Event} (hp : p.finished = false) (h : buffered p.events (streamOf x) = x :: rest) :
    ∃ e', Taken p.events x e' ∧ step (.print (streamOf x)) p = some ⟨e', p.printed ++ [x], isClosing x⟩ := by
  obtain ⟨e', htake, -⟩ := takeFrom_of_cons h
  refine ⟨e', (taken_of_takeFrom htake).2, ?_⟩
  rw [step, print, hp, htake]
  rfl

/-- In every run each stream is printed in its order, nothing of it twice, and the rest is still there. -/
theorem buffered_eq_of_reaches (h : Reaches step (start e) p) :
    ∀ s, buffered e s = ofStream s p.printed ++ buffered p.events s := by
  refine h.keeps (P := fun p => ∀ s, buffered e s = ofStream s p.printed ++ buffered p.events s) (fun _ => rfl) ?_
  intro m p q hp hstep s
  obtain ⟨-, ⟨x, e', htaken, rfl⟩ | ⟨-, rfl⟩⟩ := step_cases hstep
  · rw [hp s, htaken.buffered_eq s, ofStream_append, List.append_assoc]
  · exact hp s

/-- How far a run has come: it goes on, it has ended with the closing, or it has given up. -/
inductive Course (p : Printing) : Prop
  | going (hfinished : p.finished = false) (hopen : Open p.printed)
  | closed (log : List Event) (info : CloseInfo) (hfinished : p.finished) (hopen : Open log)
      (hprinted : p.printed = log ++ [.closed info])
  | drained (hfinished : p.finished) (hopen : Open p.printed) (hempty : ∀ s, buffered p.events s = [])

theorem course_of_reaches (h : Reaches step (start e) p) : Course p := by
  refine h.keeps (.going rfl open_nil) ?_
  intro m p q hp hstep
  obtain ⟨hgoing, hstep⟩ := step_cases hstep
  have hopen : Open p.printed := by
    cases hp with
    | going _ hopen => exact hopen
    | closed _ _ hfinished => exact absurd hfinished (by simp [hgoing])
    | drained hfinished => exact absurd hfinished (by simp [hgoing])
  obtain ⟨x, e', -, rfl⟩ | ⟨hempty, rfl⟩ := hstep
  · cases hx : isClosing x with
    | false => exact .going rfl (hopen.append_one (by simp [hx]))
    | true =>
      cases x with
      | closed info => exact .closed p.printed info rfl hopen rfl
      | _ => cases hx
  · exact .drained rfl hopen hempty

/-- Whatever takes the streams in their order, other than the closing, may be printed. -/
theorem exists_reaches (hopen : Open log) (hinitial : ∀ s, ofStream s log <+: buffered p.events s)
    (hp : p.finished = false) : ∃ q, Reaches step p q ∧ q.finished = false ∧ q.printed = p.printed ++ log := by
  induction log generalizing p with
  | nil => exact ⟨p, .refl p, hp, (List.append_nil _).symm⟩
  | cons x log ih =>
    obtain ⟨hx, hlog⟩ := List.forall_mem_cons.1 hopen
    have hcut (s : Stream) : ofStream s (x :: log) = ofStream s [x] ++ ofStream s log := ofStream_append [x] log
    have hhead := hinitial (streamOf x)
    rw [hcut, ofStream_self] at hhead
    obtain ⟨rest, hrest⟩ := hhead
    obtain ⟨e', htaken, hstep⟩ := exists_step hp hrest.symm
    have hkept (s : Stream) : ofStream s log <+: buffered e' s := by
      have hs := hinitial s
      rwa [hcut, htaken.buffered_eq s, List.prefix_append_right_inj] at hs
    obtain ⟨q, hreach, hq, hprinted⟩ :=
      ih (p := ⟨e', p.printed ++ [x], isClosing x⟩) hlog hkept (Bool.eq_false_iff.2 hx)
    refine ⟨q, ((Reaches.refl p).tail hstep).trans hreach, hq, ?_⟩
    rw [hprinted, List.append_assoc, List.singleton_append]

/-- No run goes on for ever: each move takes one event out of the streams or is the last. -/
theorem wellFounded_step : WellFounded fun q p : Printing => ∃ m, step m p = some q := by
  let rank (p : Printing) : Nat := total p.events + if p.finished then 0 else 1
  refine Subrelation.wf (r := InvImage (· < ·) rank) (fun {q p} h => ?_) (InvImage.wf rank Nat.lt_wfRel.wf)
  obtain ⟨m, hstep⟩ := h
  obtain ⟨hgoing, ⟨x, e', htaken, rfl⟩ | ⟨-, rfl⟩⟩ := step_cases hstep
  · have htotal := htaken.total_eq
    simp only [InvImage, rank, hgoing]
    split <;> simp only [Bool.false_eq_true, if_false] <;> omega
  · simp [InvImage, rank, hgoing]

/-- Until it is printed, the closing is there. -/
theorem exists_buffered_closed (h : Reaches step (start e) p) (hinfo : e.closed.buffer.head? = some info)
    (hopen : Open p.printed) : ∃ later, buffered p.events .closed = .closed info :: later := by
  obtain ⟨later, hbuffer⟩ := List.head?_eq_some_iff.1 hinfo
  have hkept := buffered_eq_of_reaches h .closed
  rw [hopen.ofStream_closed, List.nil_append, buffered, hbuffer, List.map_cons] at hkept
  exact ⟨_, hkept.symm⟩

/-- As long as a closing is there, printing can go on. -/
theorem finished_of_stuck (h : Reaches step (start e) p) (hinfo : e.closed.buffer.head? = some info)
    (hstuck : ∀ m, step m p = none) : p.finished := by
  cases course_of_reaches h with
  | going hgoing hopen =>
    obtain ⟨later, hclosed⟩ := exists_buffered_closed h hinfo hopen
    obtain ⟨e', -, hstep⟩ := exists_step (x := .closed info) hgoing hclosed
    rw [hstuck] at hstep
    cases hstep
  | closed _ _ hfinished => exact hfinished
  | drained hfinished => exact hfinished

/-- A run that ended has printed events that take the streams in their order, and last the closing. -/
theorem exists_log_of_reaches (h : Reaches step (start e) p) (hinfo : e.closed.buffer.head? = some info)
    (hfinished : p.finished) :
    ∃ log, p.printed = log ++ [.closed info] ∧ Open log ∧ ∀ s, ofStream s log <+: buffered e s := by
  have hkept := buffered_eq_of_reaches h
  cases course_of_reaches h with
  | going hgoing => exact absurd hfinished (by simp [hgoing])
  | closed log last _ hopen hprinted =>
    obtain ⟨later, hclosed⟩ := exists_buffered_closed (.refl (start e)) hinfo open_nil
    have hlast := hkept .closed
    rw [hprinted, ofStream_append, hopen.ofStream_closed, List.nil_append] at hlast
    cases (List.cons.inj (hlast.symm.trans hclosed)).1
    refine ⟨log, hprinted, hopen, fun s => ?_⟩
    rw [hkept s, hprinted, ofStream_append, List.append_assoc]
    exact List.prefix_append ..
  | drained _ hopen hempty =>
    obtain ⟨later, hclosed⟩ := exists_buffered_closed h hinfo hopen
    cases (hempty .closed).symm.trans hclosed

/-- Whatever takes the streams in their order may be all that is printed before the closing. -/
theorem exists_reaches_closing (hinfo : e.closed.buffer.head? = some info) (hopen : Open log)
    (hinitial : ∀ s, ofStream s log <+: buffered e s) :
    ∃ p, Reaches step (start e) p ∧ p.finished ∧ p.printed = log ++ [.closed info] := by
  obtain ⟨q, hreach, hq, hprinted⟩ := exists_reaches (p := start e) hopen hinitial rfl
  rw [start, List.nil_append] at hprinted
  obtain ⟨later, hclosed⟩ := exists_buffered_closed hreach hinfo (hprinted ▸ hopen)
  obtain ⟨e', -, hstep⟩ := exists_step (x := .closed info) hq hclosed
  exact ⟨_, hreach.tail hstep, rfl, by rw [hprinted]⟩

/-- When a closing is there, every run comes to an end with it, and each stream is printed in its order, nothing of it
twice. But what is printed before the closing may be anything that takes the streams in their order, so only if there
is nothing but closings is everything else printed in every run. -/
theorem closing_ends_the_printing (hinfo : e.closed.buffer.head? = some info) :
    (WellFounded fun q p : Printing => ∃ m, step m p = some q) ∧
    (∀ p, Reaches step (start e) p → (∀ m, step m p = none) → p.finished) ∧
    (∀ p, Reaches step (start e) p → ∀ s, buffered e s = ofStream s p.printed ++ buffered p.events s) ∧
    (∀ printed, (∃ p, Reaches step (start e) p ∧ p.finished ∧ p.printed = printed) ↔
      ∃ log, printed = log ++ [.closed info] ∧ Open log ∧ ∀ s, ofStream s log <+: buffered e s) ∧
    ((∀ p, Reaches step (start e) p → p.finished → ∀ s, s ≠ .closed → ofStream s p.printed = buffered e s) ↔
      ∀ s, s ≠ .closed → buffered e s = []) := by
  refine ⟨wellFounded_step, fun p h => finished_of_stuck h hinfo, fun p => buffered_eq_of_reaches, ?_, ?_, ?_⟩
  · intro printed
    constructor
    · rintro ⟨p, h, hfinished, rfl⟩
      exact exists_log_of_reaches h hinfo hfinished
    · rintro ⟨log, rfl, hopen, hinitial⟩
      exact exists_reaches_closing hinfo hopen hinitial
  · intro hall s hs
    -- the run that takes the closing first
    obtain ⟨p, h, hfinished, hprinted⟩ :=
      exists_reaches_closing hinfo open_nil fun _ => List.nil_prefix
    rw [← hall p h hfinished s hs, hprinted, List.nil_append]
    exact ofStream_other hs.symm
  · intro hempty p h hfinished s hs
    have hkept := buffered_eq_of_reaches h s
    rw [hempty s hs] at hkept ⊢
    exact (List.append_eq_nil_iff.1 hkept.symm).1

/-- the streams when a connection was closed that should be followed by one to another endpoint, of which there is
none -/
def exhausted (info : CloseInfo) : Events :=
  let published : List Event :=
    [.connected "wss://a.example.test/ws", .disconnected info, .error (.retry ⟨0, 1⟩), .closed info]
  (published.foldl (fun e x => Events.publish x e) (Events.empty Events.defaultCapacity)).close

/-- All is printed in one run, and nothing but the closing in another. -/
theorem closing_ends_the_printing_sooner_or_later :
    let info : CloseInfo := ⟨4000, "bye"⟩
    let log : List Event := [.connected "wss://a.example.test/ws", .disconnected info, .error (.retry ⟨0, 1⟩)]
    (∃ p, Reaches step (start (exhausted info)) p ∧ p.finished ∧ p.printed = log ++ [.closed info]) ∧
      ∃ p, Reaches step (start (exhausted info)) p ∧ p.finished ∧ p.printed = [.closed info] := by
  intro info log
  have hinfo : (exhausted info).closed.buffer.head? = some info := rfl
  obtain ⟨-, -, -, hprinted, -⟩ := closing_ends_the_printing hinfo
  refine ⟨(hprinted _).2 ⟨log, rfl, by simp [Open, log, isClosing], fun s => ?_⟩,
    (hprinted _).2 ⟨[], rfl, open_nil, fun s => List.nil_prefix⟩⟩
  cases s <;> first | exact List.prefix_rfl | exact List.nil_prefix

/-- Neither the end of the connection nor the error is printed, though they were there before the closing. -/
theorem closing_hides_an_error :
    let info : CloseInfo := ⟨4000, "bye"⟩
    ∃ p, Reaches step (start (exhausted info)) p ∧ p.finished ∧
      p.printed = [.connected "wss://a.example.test/ws", .closed info] ∧
      buffered (exhausted info) .disconnected = [.disconnected info] ∧ ofStream .disconnected p.printed = [] ∧
      buffered (exhausted info) .error = [.error (.retry ⟨0, 1⟩)] ∧ ofStream .error p.printed = [] := by
  intro info
  have hstart : Reaches step (start (exhausted info)) (start (exhausted info)) := .refl _
  exact ⟨_, (hstart.tail (m := .print .connected) rfl).tail (m := .print .closed) rfl, rfl, rfl, rfl, rfl, rfl, rfl⟩

end Printing

end ChatWire.CommandLine
