import ChatWire.Proofs.Task.Record
import ChatWire.Proofs.Transport.Steps
import Mathlib.Tactic

/-! However those who write to a connection and close it interleave with its tasks, what was taken into the queue goes to
the socket in the order in which it was taken, and nothing goes there after a close frame. -/

namespace ChatWire.Transport

namespace Exchange

/-- A message is taken into the queue, a frame goes to the socket, and nothing more will go there. -/
inductive Passing
  | accepted (f : WireFrame)
  | handed (f : WireFrame)
  | left
  deriving DecidableEq, Repr

def Passing.accepted? : Passing → Option WireFrame
  | .accepted f => some f
  | _ => none

def Passing.isAccepted : Passing → Bool
  | .accepted _ => true
  | _ => false

/-- the messages whose write was answered with success, in the order of the answers -/
def accepted (log : List Passing) : List WireFrame := log.filterMap Passing.accepted?

/-- what the writing task did with the socket -/
def toSocket (log : List Passing) : List Passing := log.filter fun p => !p.isAccepted

/-- What the writing task does next with the socket, other than to go on with what it has begun. -/
def handing : Choice → Writer → List Passing
  | .proceed, .sending f => [.handed f]
  | .proceed, .closing info => [.handed (.close (some info))]
  | .proceed, .leaving => [.left]
  | _, _ => []

/-- The message of a call that is answered with success. -/
def accepting : Call → Call → List Passing
  | .write type b .enqueue, .write _ _ (.finished (.ok ())) => (outgoing type b).toOption.toList.map .accepted
  | _, _ => []

def passings (m : Move) (s s' : Exchange) : List Passing :=
  match m with
  | .writer c => handing c s.transport.writer
  | .call n =>
    match s.calls[n]?, s'.calls[n]? with
    | some call, some call' => accepting call call'
    | _, _ => []
  | _ => []

end Exchange

open Exchange

/-- Where the writing task is, with what it took from the queue and did not hand on, and what it did with the socket
after the last message. -/
def StandsAt (dropped : List WireFrame) (ending : List Passing) : Writer → Prop
  | .sending f => dropped = [f] ∧ ending = []
  | .flushingClose _ => dropped = [] ∧ ∃ info, ending = [.handed (.close (some info))]
  | .leaving => dropped.length ≤ 1 ∧ (ending = [] ∨ ∃ info, ending = [.handed (.close (some info))])
  | .flushingLeave _ | .done =>
    dropped.length ≤ 1 ∧ (ending = [.left] ∨ ∃ info, ending = [.handed (.close (some info)), .left])
  | _ => dropped = [] ∧ ending = []

/-- What was handed on, what was dropped, and what waits in the queue are all that was accepted, in this order. -/
structure Conveyed (log : List Passing) (t : Transport) (sent dropped : List WireFrame) (ending : List Passing) :
    Prop where
  toSocket : toSocket log = sent.map .handed ++ ending
  accepted : accepted log = sent ++ dropped ++ t.outbound
  stands : StandsAt dropped ending t.writer

variable {now : Nat} {c : Choice} {t t' : Transport} {log : List Passing} {sent dropped : List WireFrame}
  {ending : List Passing}

theorem toSocket_append (log log' : List Passing) : toSocket (log ++ log') = toSocket log ++ toSocket log' :=
  List.filter_append ..

theorem accepted_append (log log' : List Passing) : accepted (log ++ log') = accepted log ++ accepted log' :=
  List.filterMap_append ..

theorem Sent.stands {r : Socket.Flushed} {w : Writer} (h : Sent r w) : StandsAt [] [] w := by
  cases h <;> exact ⟨rfl, rfl⟩

/-- the socket and the queue are left alone -/
theorem Conveyed.same (h : Conveyed log t sent dropped ending) (hout : t'.outbound = t.outbound)
    (hstands : StandsAt dropped ending t'.writer) : Conveyed (log ++ []) t' sent dropped ending := by
  rw [List.append_nil]
  exact ⟨h.toSocket, hout ▸ h.accepted, hstands⟩

theorem Conveyed.take {f : WireFrame} (h : Conveyed log t sent [] []) (hout : t.outbound = f :: t'.outbound)
    (hw : t'.writer = .sending f) : Conveyed (log ++ []) t' sent [f] [] := by
  rw [List.append_nil]
  refine ⟨h.toSocket, ?_, ?_⟩
  · rw [h.accepted, hout, List.append_nil, List.append_assoc]
    rfl
  · rw [hw]
    exact ⟨rfl, rfl⟩

theorem Conveyed.hand {f : WireFrame} (h : Conveyed log t sent [f] []) (hout : t'.outbound = t.outbound)
    (hstands : StandsAt [] [] t'.writer) : Conveyed (log ++ [.handed f]) t' (sent ++ [f]) [] [] := by
  refine ⟨?_, ?_, hstands⟩
  · rw [toSocket_append, h.toSocket, List.append_nil, List.append_nil, List.map_append]
    rfl
  · rw [accepted_append, h.accepted, hout, List.append_nil]
    exact List.append_nil _

/-- The task is done with the queue, and closes or leaves the socket. -/
theorem Conveyed.finish {p : Passing} (h : Conveyed log t sent dropped ending) (hp : p.isAccepted = false)
    (hout : t'.outbound = t.outbound) (hstands : StandsAt dropped (ending ++ [p]) t'.writer) :
    Conveyed (log ++ [p]) t' sent dropped (ending ++ [p]) := by
  refine ⟨?_, ?_, hstands⟩
  · rw [toSocket_append, h.toSocket, List.append_assoc]
    cases p with
    | accepted => cases hp
    | handed | left => rfl
  · rw [accepted_append, h.accepted, hout]
    cases p with
    | accepted => cases hp
    | handed | left => exact List.append_nil _

theorem Conveyed.writer (h : Conveyed log t sent dropped ending) (hstep : WriterStep now t c t') :
    ∃ sent dropped ending, Conveyed (log ++ handing c t.writer) t' sent dropped ending := by
  have hstands := h.stands
  cases hstep with
  | obey hw | unasked hw | goOn hw | rest hw | wake hw =>
    rw [hw] at hstands ⊢
    exact ⟨_, _, _, h.same rfl hstands⟩
  | report hw =>
    rw [hw] at hstands ⊢
    exact ⟨_, _, _, h.same (by rw [fire_eq]) hstands⟩
  | take hw hout =>
    rw [hw] at hstands ⊢
    obtain ⟨rfl, rfl⟩ := hstands
    exact ⟨_, _, _, h.take hout rfl⟩
  | send hw _ hsent =>
    rw [hw] at hstands ⊢
    obtain ⟨rfl, rfl⟩ := hstands
    exact ⟨_, _, _, h.hand rfl hsent.stands⟩
  | flush hw _ _ hsent =>
    rw [hw] at hstands ⊢
    obtain ⟨rfl, rfl⟩ := hstands
    exact ⟨_, _, _, h.same rfl hsent.stands⟩
  -- What the task has in hand is lost when it gives up.
  | abort hw =>
    rw [hw] at hstands ⊢
    obtain ⟨rfl, rfl⟩ := hstands
    exact ⟨_, _, _, h.same rfl ⟨le_rfl, .inl rfl⟩⟩
  | cancelled hw | abandon hw | cancel hw =>
    rw [hw] at hstands ⊢
    obtain ⟨rfl, rfl⟩ := hstands
    exact ⟨_, _, _, h.same rfl ⟨Nat.zero_le 1, .inl rfl⟩⟩
  | blockedClose hw =>
    rw [hw] at hstands ⊢
    obtain ⟨rfl, rfl⟩ := hstands
    exact ⟨_, _, _, h.finish rfl rfl ⟨rfl, _, rfl⟩⟩
  | close hw =>
    rw [hw] at hstands ⊢
    obtain ⟨rfl, rfl⟩ := hstands
    exact ⟨_, _, _, h.finish rfl rfl ⟨Nat.zero_le 1, .inr ⟨_, rfl⟩⟩⟩
  | closeFlushed hw | closeLate hw =>
    rw [hw] at hstands ⊢
    obtain ⟨rfl, hclose⟩ := hstands
    exact ⟨_, _, _, h.same rfl ⟨Nat.zero_le 1, .inr hclose⟩⟩
  | blockedLeave hw | leave hw =>
    rw [hw] at hstands ⊢
    obtain ⟨hdropped, rfl | ⟨info, rfl⟩⟩ := hstands
    · exact ⟨_, _, _, h.finish rfl rfl ⟨hdropped, .inl rfl⟩⟩
    · exact ⟨_, _, _, h.finish rfl rfl ⟨hdropped, .inr ⟨info, rfl⟩⟩⟩
  | left hw | leftLate hw =>
    rw [hw] at hstands ⊢
    exact ⟨_, _, _, h.same rfl hstands⟩

theorem Conveyed.reader (h : Conveyed log t sent dropped ending) (hstep : ReaderStep t c t') :
    Conveyed (log ++ []) t' sent dropped ending :=
  h.same hstep.outbound (hstep.writer ▸ h.stands)

theorem Conveyed.queue {f : WireFrame} (h : Conveyed log t sent dropped ending) :
    Conveyed (log ++ [.accepted f]) { t with outbound := t.outbound ++ [f] } sent dropped ending := by
  refine ⟨?_, ?_, h.stands⟩
  · rw [toSocket_append, h.toSocket]
    exact List.append_nil _
  · rw [accepted_append, h.accepted, List.append_assoc]
    rfl

theorem Conveyed.call {call call' : Call} (h : Conveyed log t sent dropped ending)
    (hstep : CallStep now t call call' t') : Conveyed (log ++ accepting call call') t' sent dropped ending := by
  cases hstep with
  | turnAway | pass | refuse => exact h.same rfl h.stands
  | enqueue hf henqueue =>
    cases henqueue with
    | gone | full => exact h.same rfl h.stands
    | queued =>
      rw [accepting, hf]
      exact h.queue
  | close hclosing => exact h.same hclosing.outbound (hclosing.writer ▸ h.stands)

theorem Conveyed.step {m : Move} {s s' : Exchange} (h : Conveyed log s.transport sent dropped ending)
    (hstep : s.step m = some s') :
    ∃ sent dropped ending, Conveyed (log ++ passings m s s') s'.transport sent dropped ending := by
  cases step_cases hstep with
  | reader hreader => exact ⟨_, _, _, h.reader hreader⟩
  | writer hwriter => exact h.writer hwriter
  | call hcall hcallStep =>
    rw [passings, hcall, List.getElem?_set_self (List.getElem?_eq_some_iff.mp hcall).1]
    exact ⟨_, _, _, h.call hcallStep⟩
  | begin => exact ⟨_, _, _, h.same rfl h.stands⟩
  | aside haside =>
    cases m with
    | reader | writer | call | begin => cases haside
    | _ => exact ⟨_, _, _, h.same rfl h.stands⟩

/-! There is never more in the queue than it has room for. -/

theorem CallStep.length_outbound {call call' : Call} (h : CallStep now t call call' t')
    (hle : t.outbound.length ≤ outboundCapacity) : t'.outbound.length ≤ outboundCapacity := by
  cases h with
  | turnAway | pass | refuse => exact hle
  | enqueue _ henqueue =>
    cases henqueue with
    | gone | full => exact hle
    | queued _ hroom =>
      rw [List.length_append]
      exact hroom
  | close hclosing => rwa [hclosing.outbound]

theorem Exchange.length_outbound_step {m : Move} {s s' : Exchange} (h : s.step m = some s')
    (hle : s.transport.outbound.length ≤ outboundCapacity) : s'.transport.outbound.length ≤ outboundCapacity := by
  cases step_cases h with
  | reader hreader => rwa [hreader.outbound]
  | writer hwriter => exact hwriter.outbound.length_le.trans hle
  | call _ hcall => exact hcall.length_outbound hle
  | begin | aside => exact hle

/-- Nothing changes for a message that finds the queue full, whether or not somebody still takes from it. -/
theorem enqueue_of_full {f : WireFrame} (hfull : outboundCapacity ≤ t.outbound.length) :
    t.enqueue f = (.error (if t.writer = .done then .closed else .queueFull), t) := by
  unfold enqueue
  split_ifs with hw hroom
  · rfl
  · exact absurd hroom (Nat.not_lt.mpr hfull)
  · rfl

theorem Exchange.step_of_full {n : Nat} {type : FrameType} {b : Bytes} {f : WireFrame} {s : Exchange}
    (hcall : s.calls[n]? = some (.write type b .enqueue)) (hf : outgoing type b = .ok f)
    (hfull : outboundCapacity ≤ s.transport.outbound.length) :
    s.step (.call n) = some { s with calls := s.calls.set n (.write type b
      (.finished (.error (if s.transport.writer = .done then .closed else .queueFull)))) } := by
  simp only [step, hcall, Option.bind_eq_bind, Option.bind_some, stepCall, accept, hf, enqueue_of_full hfull]

/-! Only messages are queued. -/

theorem close_ne_of_outgoing {type : FrameType} {b : Bytes} {f : WireFrame} (h : outgoing type b = .ok f)
    (info : Option CloseInfo) : WireFrame.close info ≠ f := by
  unfold outgoing at h
  split at h
  · cases h
    exact WireFrame.noConfusion
  · split at h
    · cases h
      exact WireFrame.noConfusion
    · cases h

theorem accepted_handing (c : Choice) (w : Writer) : accepted (handing c w) = [] := by
  unfold handing
  split <;> rfl

theorem close_notMem_accepting (info : Option CloseInfo) (call call' : Call) :
    .close info ∉ accepted (accepting call call') := by
  unfold accepting
  split
  · next type b _ _ =>
    cases hf : outgoing type b with
    | ok f => exact fun hmem => close_ne_of_outgoing hf info (List.mem_singleton.mp hmem)
    | error => exact List.not_mem_nil
  · exact List.not_mem_nil

theorem close_notMem_passings (info : Option CloseInfo) (m : Move) (s s' : Exchange) :
    .close info ∉ accepted (passings m s s') := by
  unfold passings
  split
  · rw [accepted_handing]
    exact List.not_mem_nil
  · split
    · exact close_notMem_accepting info _ _
    · exact List.not_mem_nil
  · exact List.not_mem_nil

/-- At most one message was dropped, and the socket is closed before it is left if it is closed at all. -/
theorem StandsAt.spelled {w : Writer} (h : StandsAt dropped ending w) : dropped.length ≤ 1 ∧
    (ending = [] ∨ ending = [.left] ∨
      ∃ info, ending = [.handed (.close (some info))] ∨ ending = [.handed (.close (some info)), .left]) := by
  cases w with
  | sending =>
    obtain ⟨rfl, rfl⟩ := h
    exact ⟨le_rfl, .inl rfl⟩
  | flushingClose =>
    obtain ⟨rfl, info, rfl⟩ := h
    exact ⟨Nat.zero_le 1, .inr (.inr ⟨info, .inl rfl⟩)⟩
  | leaving =>
    obtain ⟨hdropped, rfl | ⟨info, rfl⟩⟩ := h
    · exact ⟨hdropped, .inl rfl⟩
    · exact ⟨hdropped, .inr (.inr ⟨info, .inl rfl⟩)⟩
  | flushingLeave | done =>
    obtain ⟨hdropped, rfl | ⟨info, rfl⟩⟩ := h
    · exact ⟨hdropped, .inr (.inl rfl)⟩
    · exact ⟨hdropped, .inr (.inr ⟨info, .inr rfl⟩)⟩
  | _ =>
    obtain ⟨rfl, rfl⟩ := h
    exact ⟨Nat.zero_le 1, .inl rfl⟩

namespace Exchange

/-- What holds in every interleaving: all that was accepted has been handed on, or is in hand or dropped, or waits. -/
structure InOrder (log : List Passing) (s : Exchange) : Prop where
  conveyed : ∃ sent dropped ending, Conveyed log s.transport sent dropped ending
  room : s.transport.outbound.length ≤ outboundCapacity
  messages : ∀ info, .close info ∉ accepted log

theorem inOrder_of_recorded {s : Exchange} (h : Schedule.Recorded step passings opened log s) :
    InOrder log s := by
  induction h with
  | start => exact ⟨⟨[], [], [], rfl, rfl, rfl, rfl⟩, Nat.zero_le _, fun _ => List.not_mem_nil⟩
  | @step log s s' m _ hstep ih =>
    obtain ⟨sent, dropped, ending, hconveyed⟩ := ih.conveyed
    refine ⟨hconveyed.step hstep, length_outbound_step hstep ih.room, fun info hmem => ?_⟩
    rw [accepted_append] at hmem
    cases List.mem_append.mp hmem with
    | inl hold => exact ih.messages info hold
    | inr hnew => exact close_notMem_passings info m s s' hnew

/-- In every interleaving of writes, closings, faults and the two tasks: the messages that were handed to the socket are
the first ones of those that were accepted, in this order; then comes at most one message that is in hand or was
dropped, and then the queue, which never holds more than it has room for. After the messages the socket was closed at
most once and left at most once, and no message followed. A write that finds the queue full is told so, or that nobody
takes from it any more, and changes nothing. -/
theorem messages_go_out_in_order {s : Exchange} (h : Schedule.Recorded step passings opened log s) :
    (∃ sent dropped ending, toSocket log = sent.map .handed ++ ending ∧
      accepted log = sent ++ dropped ++ s.transport.outbound ∧ dropped.length ≤ 1 ∧
      (∀ info, .close info ∉ accepted log) ∧ (ending = [] ∨ ending = [.left] ∨
        ∃ info, ending = [.handed (.close (some info))] ∨ ending = [.handed (.close (some info)), .left])) ∧
    s.transport.outbound.length ≤ outboundCapacity ∧
    ∀ n type b f, s.calls[n]? = some (.write type b .enqueue) → outgoing type b = .ok f →
      outboundCapacity ≤ s.transport.outbound.length → s.step (.call n) = some { s with calls := s.calls.set n (.write
        type b (.finished (.error (if s.transport.writer = .done then .closed else .queueFull)))) } := by
  obtain ⟨⟨sent, dropped, ending, hconveyed⟩, hroom, hmessages⟩ := inOrder_of_recorded h
  obtain ⟨hdropped, hending⟩ := hconveyed.stands.spelled
  exact ⟨⟨sent, dropped, ending, hconveyed.toSocket, hconveyed.accepted, hdropped, hmessages, hending⟩, hroom,
    fun _ _ _ _ hcall hf hfull => step_of_full hcall hf hfull⟩

/-- Two messages are accepted, one is sent, and somebody closes. -/
def closingMoves : List Move :=
  [.begin (.write .binary [1] .check), .call 0, .call 0, .begin (.write .text [104, 105] .check), .call 1, .call 1]
    ++ List.replicate 4 (.writer .proceed) ++ .begin (.close ⟨1000, "done"⟩ .request) :: .call 2
    :: List.replicate 3 (.writer .proceed)

/-- Whether one message was sent and the other one was not, and the socket was closed and left. -/
def isClosedEarly (r : List Passing × Exchange) : Bool :=
  accepted r.1 == [.binary [1], .text "hi"] &&
    toSocket r.1 == [.handed (.binary [1]), .handed (.close (some ⟨1000, "done"⟩)), .left]

/-- The message that was not sent before the close frame stays in the queue. -/
theorem messages_go_out_in_order_closed :
    ∃ log s, Schedule.Recorded step passings opened log s ∧ accepted log = [.binary [1], .text "hi"] ∧
      toSocket log = [.handed (.binary [1]), .handed (.close (some ⟨1000, "done"⟩)), .left] ∧
      ∃ sent dropped ending, toSocket log = sent.map .handed ++ ending ∧
        accepted log = sent ++ dropped ++ s.transport.outbound ∧ s.transport.outbound.length ≤ outboundCapacity := by
  have hran : (Schedule.record step passings closingMoves ([], opened)).any isClosedEarly = true := by decide +kernel
  obtain ⟨log, s, hrecorded, hclosed⟩ := Schedule.exists_recorded hran
  rw [isClosedEarly, Bool.and_eq_true, beq_iff_eq, beq_iff_eq] at hclosed
  obtain ⟨⟨sent, dropped, ending, hsocket, haccepted, -⟩, hroom, -⟩ := messages_go_out_in_order hrecorded
  exact ⟨log, s, hrecorded, hclosed.1, hclosed.2, sent, dropped, ending, hsocket, haccepted, hroom⟩

end Exchange

end ChatWire.Transport
