import ChatWire.Proofs.Task.Record
import ChatWire.Proofs.Transport.Closure
import Mathlib.Tactic

/-! However the tasks of a connection and those who close it interleave, the cause that is first to report is the one
that is sent, nothing is sent after it, and no write is taken any more. -/

namespace ChatWire

namespace Transport

variable {now : Nat} {c : Choice} {t t' : Transport}

/-! A connection that is cancelled stays so. -/

theorem ReaderStep.stays_cancelled (h : ReaderStep t c t') (hc : t.cancelled) : t'.cancelled := by
  cases h with
  | report => rwa [fire_eq]
  | finish => rfl
  | _ => exact hc

theorem WriterStep.stays_cancelled (h : WriterStep now t c t') (hc : t.cancelled) : t'.cancelled := by
  cases h with
  | report => rwa [fire_eq]
  | cancel => rfl
  | _ => exact hc

theorem CallStep.stays_cancelled {call call' : Call} (h : CallStep now t call call' t') (hc : t.cancelled) :
    t'.cancelled := by
  cases h with
  | turnAway | pass | refuse => exact hc
  | enqueue _ henqueue => cases henqueue <;> exact hc
  | close hclosing =>
    cases hclosing with
    | report => rwa [fire_eq]
    | cancel => rfl
    | _ => exact hc

namespace Exchange

/-- The cause that a move reports. -/
def cause? (m : Move) (s : Exchange) : Option CloseInfo :=
  match m with
  | .reader c => Reader.cause? c s.transport.reader
  | .writer c => Writer.cause? c s.transport.writer
  | .call n => s.calls[n]?.bind Call.cause?
  | _ => none

/-- Somebody reports a cause, and a cause is sent to whoever waits for the closing. -/
inductive Report
  | caused (info : CloseInfo)
  | sent (info : CloseInfo)
  deriving DecidableEq, Repr

def Report.cause? : Report → Option CloseInfo
  | .caused info => some info
  | .sent _ => none

def Report.sent? : Report → Option CloseInfo
  | .caused _ => none
  | .sent info => some info

/-- the causes that were reported, the first one first -/
def causes (log : List Report) : List CloseInfo := log.filterMap Report.cause?

/-- what was sent to whoever waits for the closing -/
def announced (log : List Report) : List CloseInfo := log.filterMap Report.sent?

/-- What was sent is what the channel holds after the move and did not hold before it. -/
def reports (m : Move) (s s' : Exchange) : List Report :=
  (cause? m s).toList.map .caused
    ++ if s'.transport.closure = s.transport.closure then [] else s'.transport.closure.toList.map .sent

variable {m : Move} {s s' : Exchange} {log : List Report}

theorem causes_append_reports : causes (log ++ reports m s s') = causes log ++ (cause? m s).toList := by
  unfold causes reports
  rw [List.filterMap_append, List.filterMap_append]
  congr 1
  cases cause? m s <;> split <;> cases s'.transport.closure <;> rfl

theorem announced_append_reports : announced (log ++ reports m s s') = announced log ++
    if s'.transport.closure = s.transport.closure then [] else s'.transport.closure.toList := by
  unfold announced reports
  rw [List.filterMap_append, List.filterMap_append]
  congr 1
  cases cause? m s <;> split <;> cases s'.transport.closure <;> rfl

theorem closure_step (h : s.step m = some s') : s'.transport.closure = s.transport.closure.or (cause? m s) := by
  cases step_cases h with
  | reader hreader => exact hreader.closure
  | writer hwriter => exact hwriter.closure
  | call hcall hstep =>
    rw [hstep.closure, cause?, hcall]
    rfl
  | begin => exact (Option.or_none ..).symm
  | aside haside =>
    cases m with
    | reader | writer | call | begin => cases haside
    | _ => exact (Option.or_none ..).symm

theorem cancelled_step (h : s.step m = some s') (hc : s.transport.cancelled) : s'.transport.cancelled := by
  cases step_cases h with
  | reader hreader => exact hreader.stays_cancelled hc
  | writer hwriter => exact hwriter.stays_cancelled hc
  | call _ hstep => exact hstep.stays_cancelled hc
  | begin | aside => exact hc

theorem isClosed_step (h : s.step m = some s') (hclosed : s.transport.isClosed) : s'.transport.isClosed := by
  rw [isClosed, Bool.or_eq_true] at hclosed ⊢
  cases hclosed with
  | inl hsome =>
    left
    rw [closure_step h, Option.isSome_or, hsome, Bool.true_or]
  | inr hc => exact .inr (cancelled_step h hc)

/-- What is sent is the cause that was first, and there is one as soon as there is a cause. -/
structure SentOnce (log : List Report) (s : Exchange) : Prop where
  closure : s.transport.closure = (causes log).head?
  announced : announced log = (causes log).head?.toList

theorem SentOnce.step (h : SentOnce log s) (hstep : s.step m = some s') : SentOnce (log ++ reports m s s') s' := by
  have hclosure : s'.transport.closure = (causes (log ++ reports m s s')).head? := by
    rw [closure_step hstep, h.closure, causes_append_reports, List.head?_append]
    cases cause? m s <;> rfl
  refine ⟨hclosure, ?_⟩
  rw [announced_append_reports, h.announced, ← hclosure, ← h.closure]
  cases hbefore : s.transport.closure with
  | none => cases s'.transport.closure <;> rfl
  | some info =>
    have hafter : s'.transport.closure = some info := by
      rw [closure_step hstep, hbefore]
      rfl
    rw [hafter, if_pos rfl, List.append_nil]

theorem sentOnce_of_recorded (h : Schedule.Recorded step reports opened log s) : SentOnce log s := by
  induction h with
  | start => exact ⟨rfl, rfl⟩
  | step _ hstep ih => exact ih.step hstep

/-- Writes that have been told that the connection is closed, or have not looked yet. -/
def IsHeldOff (n : Nat) (type : FrameType) (b : Bytes) (s : Exchange) : Prop :=
  s.calls[n]? = some (.write type b (.finished (.error .closed))) ∨ s.calls[n]? = some (.write type b .check)

theorem IsHeldOff.of_calls_eq {n : Nat} {type : FrameType} {b : Bytes} (h : IsHeldOff n type b s)
    (hcalls : s'.calls[n]? = s.calls[n]?) : IsHeldOff n type b s' := by
  unfold IsHeldOff
  rwa [hcalls]

theorem IsHeldOff.step {n : Nat} {type : FrameType} {b : Bytes} (h : IsHeldOff n type b s)
    (hclosed : s.transport.isClosed) (hstep : s.step m = some s') : IsHeldOff n type b s' := by
  have hlt : n < s.calls.length := by
    cases h with
    | inl h | inr h => exact (List.getElem?_eq_some_iff.mp h).1
  cases step_cases hstep with
  | reader | writer | aside => exact h.of_calls_eq rfl
  | begin => exact h.of_calls_eq (List.getElem?_append_left hlt)
  | @call k call call' t hcall hcallStep =>
    by_cases hk : k = n
    · subst hk
      left
      cases h with
      | inl hdone =>
        cases Option.some.inj (hcall.symm.trans hdone)
        cases hcallStep
      | inr hcheck =>
        cases Option.some.inj (hcall.symm.trans hcheck)
        cases hcallStep with
        | turnAway => exact List.getElem?_set_self hlt
        | pass hopen => cases hopen.symm.trans hclosed
    · exact h.of_calls_eq (List.getElem?_set_ne hk)

theorem turn_away {n : Nat} {type : FrameType} {b : Bytes} (hcheck : s.calls[n]? = some (.write type b .check))
    (hclosed : s.transport.isClosed) :
    s.step (.call n) = some { s with calls := s.calls.set n (.write type b (.finished (.error .closed))) } := by
  simp only [step, hcheck, Option.bind_eq_bind, Option.bind_some, stepCall, hclosed, if_true]

/-- In every interleaving of the two tasks and of whoever writes and closes: what was announced is the first cause that
anybody reported, once, and nothing as long as there is none; whatever happens later, it stays. A connection that is
closed stays closed, and a write that looks at it from then on is told so: either it has been, or it is yet to look, and
then its one step gives it that answer and changes nothing else. -/
theorem closing_is_reported_once (h : Schedule.Recorded step reports opened log s) :
    s.transport.closure = (causes log).head? ∧ announced log = (causes log).head?.toList ∧
      ∀ s', Schedule.Reaches step s s' →
        (∀ info, s.transport.closure = some info → s'.transport.closure = some info) ∧
        (s.transport.isClosed → s'.transport.isClosed ∧
          ∀ n type b, s.calls[n]? = some (.write type b .check) →
            s'.calls[n]? = some (.write type b (.finished (.error .closed))) ∨
              s'.calls[n]? = some (.write type b .check) ∧ s'.step (.call n) =
                some { s' with calls := s'.calls.set n (.write type b (.finished (.error .closed))) }) := by
  have hsent := sentOnce_of_recorded h
  refine ⟨hsent.closure, hsent.announced, fun s' hreach => ⟨fun info hinfo => ?_, fun hclosed => ?_⟩⟩
  · refine hreach.keeps (P := fun s => s.transport.closure = some info) hinfo fun hinfo hstep => ?_
    rw [closure_step hstep, hinfo]
    rfl
  · refine ⟨hreach.keeps hclosed fun h hstep => isClosed_step hstep h, fun n type b hcheck => ?_⟩
    obtain ⟨hclosed', hdone | hcheck'⟩ :=
      hreach.keeps (P := fun s => s.transport.isClosed ∧ IsHeldOff n type b s) ⟨hclosed, .inr hcheck⟩
        fun h hstep => ⟨isClosed_step hstep h.1, h.2.step h.1 hstep⟩
    · exact .inl hdone
    · exact .inr ⟨hcheck', turn_away hcheck' hclosed'⟩

/-- The peer closes and is read, somebody closes too, the peer's cause is reported and then the other one; a write is
about to look. -/
def racingMoves : List Move :=
  [.begin (.close ⟨1000, "done"⟩ .request), .begin (.write .binary [1] .check), .peerSend (.close (some ⟨1001, "away"⟩)),
    .reader .proceed, .call 0, .reader .proceed, .call 0]

/-- Whether two causes were reported and a write has not looked. -/
def isRaced (r : List Report × Exchange) : Bool :=
  causes r.1 == [⟨1001, "away"⟩, ⟨1000, "done"⟩] &&
    match r.2.calls[1]? with
    | some (Call.write .binary b .check) => b == [1]
    | _ => false

/-- The peer's cause is the one that is sent, and the write is turned away. -/
theorem closing_is_reported_once_raced :
    ∃ log s, Schedule.Recorded step reports opened log s ∧ causes log = [⟨1001, "away"⟩, ⟨1000, "done"⟩] ∧
      announced log = [⟨1001, "away"⟩] ∧ s.step (.call 1) =
        some { s with calls := s.calls.set 1 (.write .binary [1] (.finished (.error .closed))) } := by
  have hran : (Schedule.record step reports racingMoves ([], opened)).any isRaced = true := by decide +kernel
  obtain ⟨log, s, hrecorded, hraced⟩ := Schedule.exists_recorded hran
  rw [isRaced, Bool.and_eq_true, beq_iff_eq] at hraced
  obtain ⟨hcauses, hwrite⟩ := hraced
  have hcheck : s.calls[1]? = some (.write .binary [1] .check) := by
    split at hwrite
    · next b hcall =>
      rw [beq_iff_eq] at hwrite
      rw [hcall, hwrite]
    · cases hwrite
  obtain ⟨hclosure, hannounced, hlater⟩ := closing_is_reported_once hrecorded
  have hclosed : s.transport.isClosed := by
    rw [isClosed, hclosure, hcauses]
    rfl
  refine ⟨log, s, hrecorded, hcauses, hannounced.trans (by rw [hcauses]; rfl), ?_⟩
  obtain hdone | ⟨-, hstep⟩ := ((hlater s (.refl s)).2 hclosed).2 1 _ _ hcheck
  · cases hdone.symm.trans hcheck
  · exact hstep

end Exchange

end Transport

end ChatWire
