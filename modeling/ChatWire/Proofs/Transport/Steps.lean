import ChatWire.Transport.Exchange
import Mathlib.Tactic

/-! What one step of a task of a connection can be, and one of a call on it. Each relation lists all the ways in which
it goes on, with what each of them asks of the connection and makes of it. -/

namespace ChatWire.Transport

inductive ReaderStep (t : Transport) : Choice → Transport → Prop
  | leave : t.reader = .reading → t.cancelled → ReaderStep t .heed { t with reader := .done }
  | giveUp {b : Bytes} : t.reader = .delivering b → t.cancelled → ReaderStep t .heed { t with reader := .done }
  | answer {socket : Socket} : t.reader = .reading → t.socket.receive = (.waiting, socket) →
      ReaderStep t .proceed { t with socket }
  | read {f : WireFrame} {socket : Socket} : t.reader = .reading → t.socket.receive = (.frame f, socket) →
      ReaderStep t .proceed { t with socket, reader := readFrame f }
  | broken {e : SocketError} {socket : Socket} : t.reader = .reading → t.socket.receive = (.failed e, socket) →
      ReaderStep t .proceed { t with socket, reader := .ending (.abnormal e.message) }
  | ended {socket : Socket} : t.reader = .reading → t.socket.receive = (.ended, socket) →
      ReaderStep t .proceed { t with socket, reader := .ending (.abnormal "connection ended") }
  | forsaken {b : Bytes} : t.reader = .delivering b → t.listening = false →
      ReaderStep t .proceed { t with reader := .done }
  | deliver {b : Bytes} : t.reader = .delivering b → t.listening → t.inbound.length < inboundCapacity →
      ReaderStep t .proceed { t with inbound := t.inbound ++ [b], reader := .reading }
  | report {info : CloseInfo} : t.reader = .ending info → ReaderStep t .proceed { t.fire info with reader := .reported }
  | finish : t.reader = .reported → ReaderStep t .proceed { t.cancel with reader := .done }

/-- Where the writing task goes after an attempt to send a frame. -/
inductive Sent : Socket.Flushed → Writer → Prop
  | done : Sent .done .atRequest
  | blocked : Sent .blocked .flushing
  | fatal {e : SocketError} : e.isFatal → Sent (.failed e) (.failing (.abnormal e.message))
  | survived {e : SocketError} : e.isFatal = false → Sent (.failed e) .atRequest

inductive WriterStep (now : Nat) (t : Transport) : Choice → Transport → Prop
  | obey {info : CloseInfo} : t.writer = .atRequest → t.request = some info →
      WriterStep now t .proceed { t with writer := .closing info }
  | unasked : t.writer = .atRequest → t.request = none → WriterStep now t .proceed { t with writer := .atCancelled }
  | cancelled : t.writer = .atCancelled → t.cancelled → WriterStep now t .proceed { t with writer := .leaving }
  | goOn : t.writer = .atCancelled → t.cancelled = false → WriterStep now t .proceed { t with writer := .atQueue }
  | take {f : WireFrame} {rest : List WireFrame} : t.writer = .atQueue → t.outbound = f :: rest →
      WriterStep now t .proceed { t with outbound := rest, writer := .sending f }
  | rest : t.writer = .atQueue → t.outbound = [] → WriterStep now t .proceed { t with writer := .waiting }
  | wake : t.writer = .waiting → t.isBusy → WriterStep now t .proceed { t with writer := .atRequest }
  | abort {f : WireFrame} : t.writer = .sending f → t.cancelled → WriterStep now t .heed { t with writer := .leaving }
  | abandon : t.writer = .flushing → t.cancelled → WriterStep now t .heed { t with writer := .leaving }
  | send {f : WireFrame} {r : Socket.Flushed} {socket : Socket} {errors : List TransportError} {writer : Writer} :
      t.writer = .sending f → t.socket.send f = (r, socket) → Sent r writer →
        WriterStep now t .proceed { t with socket, errors, writer }
  | flush {r : Socket.Flushed} {socket : Socket} {errors : List TransportError} {writer : Writer} :
      t.writer = .flushing → t.socket.flush = (r, socket) → r ≠ .blocked → Sent r writer →
        WriterStep now t .proceed { t with socket, errors, writer }
  | report {info : CloseInfo} : t.writer = .failing info →
      WriterStep now t .proceed { t.fire info with writer := .failed }
  | cancel : t.writer = .failed → WriterStep now t .proceed { t.cancel with writer := .leaving }
  | blockedClose {info : CloseInfo} {socket : Socket} : t.writer = .closing info →
      t.socket.send (.close (some info)) = (.blocked, socket) →
        WriterStep now t .proceed { t with socket, writer := .flushingClose (now + flushTimeout) }
  | close {info : CloseInfo} {r : Socket.Flushed} {socket : Socket} : t.writer = .closing info →
      t.socket.send (.close (some info)) = (r, socket) → r ≠ .blocked →
        WriterStep now t .proceed { t with socket, writer := .leaving }
  | closeFlushed {deadline : Nat} {r : Socket.Flushed} {socket : Socket} : t.writer = .flushingClose deadline →
      t.socket.flush = (r, socket) → r ≠ .blocked → WriterStep now t .proceed { t with socket, writer := .leaving }
  | closeLate {deadline : Nat} : t.writer = .flushingClose deadline → deadline ≤ now →
      WriterStep now t .proceed { t with writer := .leaving }
  | blockedLeave {socket : Socket} : t.writer = .leaving → t.socket.close = (.blocked, socket) →
      WriterStep now t .proceed { t with socket, writer := .flushingLeave (now + flushTimeout) }
  | leave {r : Socket.Flushed} {socket : Socket} : t.writer = .leaving → t.socket.close = (r, socket) → r ≠ .blocked →
      WriterStep now t .proceed { t with socket, writer := .done }
  | left {deadline : Nat} {r : Socket.Flushed} {socket : Socket} : t.writer = .flushingLeave deadline →
      t.socket.flush = (r, socket) → r ≠ .blocked → WriterStep now t .proceed { t with socket, writer := .done }
  | leftLate {deadline : Nat} : t.writer = .flushingLeave deadline → deadline ≤ now →
      WriterStep now t .proceed { t with writer := .done }

/-- What becomes of a frame that is to be queued. -/
inductive EnqueueStep (t : Transport) (f : WireFrame) : Except TransportError Unit → Transport → Prop
  | gone : t.writer = .done → EnqueueStep t f (.error .closed) t
  | full : t.writer ≠ .done → outboundCapacity ≤ t.outbound.length → EnqueueStep t f (.error .queueFull) t
  | queued : t.writer ≠ .done → t.outbound.length < outboundCapacity →
      EnqueueStep t f (.ok ()) { t with outbound := t.outbound ++ [f] }

inductive ClosingStep (now : Nat) (info : CloseInfo) (t : Transport) : Closing → Closing → Transport → Prop
  | request : ClosingStep now info t .request .report { t with request := some (t.request.getD info) }
  | report : ClosingStep now info t .report .join (t.fire info)
  | join : t.joined = false → ClosingStep now info t .join (.waiting (now + flushTimeout)) { t with joined := true }
  | forgo : t.joined → ClosingStep now info t .join .cancel t
  | joined {deadline : Nat} : t.writer = .done ∨ deadline ≤ now → ClosingStep now info t (.waiting deadline) .cancel t
  | cancel : ClosingStep now info t .cancel .done t.cancel

inductive CallStep (now : Nat) (t : Transport) : Call → Call → Transport → Prop
  | turnAway {type : FrameType} {b : Bytes} : t.isClosed →
      CallStep now t (.write type b .check) (.write type b (.finished (.error .closed))) t
  | pass {type : FrameType} {b : Bytes} : t.isClosed = false →
      CallStep now t (.write type b .check) (.write type b .enqueue) t
  | refuse {type : FrameType} {b : Bytes} {e : TransportError} : outgoing type b = .error e →
      CallStep now t (.write type b .enqueue) (.write type b (.finished (.error e))) t
  | enqueue {type : FrameType} {b : Bytes} {f : WireFrame} {r : Except TransportError Unit} {t' : Transport} :
      outgoing type b = .ok f → EnqueueStep t f r t' →
        CallStep now t (.write type b .enqueue) (.write type b (.finished r)) t'
  | close {info : CloseInfo} {stage stage' : Closing} {t' : Transport} :
      ClosingStep now info t stage stage' t' → CallStep now t (.close info stage) (.close info stage') t'

/-- Whoever is neither a task of the connection nor calls on it takes from the queues or lets go of them, or acts on the
socket or the clock. -/
def Exchange.Move.isAside : Exchange.Move → Bool
  | .reader _ | .writer _ | .call _ | .begin _ => false
  | _ => true

inductive ExchangeStep (s : Exchange) : Exchange.Move → Exchange → Prop
  | reader {c : Choice} {t : Transport} : ReaderStep s.transport c t →
      ExchangeStep s (.reader c) { s with transport := t }
  | writer {c : Choice} {t : Transport} : WriterStep s.now s.transport c t →
      ExchangeStep s (.writer c) { s with transport := t }
  | call {n : Nat} {call call' : Call} {t : Transport} : s.calls[n]? = some call →
      CallStep s.now s.transport call call' t →
        ExchangeStep s (.call n) { s with transport := t, calls := s.calls.set n call' }
  | begin {call : Call} : ExchangeStep s (.begin call) { s with calls := s.calls ++ [call] }
  | aside {m : Exchange.Move} {socket : Socket} {inbound : List Bytes} {errors : List TransportError} {listening : Bool}
      {now : Nat} : m.isAside →
        ExchangeStep s m { s with transport := { s.transport with socket, inbound, errors, listening }, now }

variable {now : Nat} {c : Choice} {t t' : Transport}

theorem read_cases (h : t.read = some t') (hreader : t.reader = .reading) : ReaderStep t .proceed t' := by
  unfold read at h
  split at h
  · next socket hreceive =>
    split at h
    · cases h
      exact .answer hreader hreceive
    · cases h
  · next f socket hreceive =>
    cases h
    exact .read hreader hreceive
  · next e socket hreceive =>
    cases h
    exact .broken hreader hreceive
  · next socket hreceive =>
    cases h
    exact .ended hreader hreceive

theorem stepReader_cases (h : t.stepReader c = some t') : ReaderStep t c t' := by
  unfold stepReader at h
  split at h
  · next hreader =>
    split_ifs at h with hc
    cases h
    exact .leave hreader hc
  · next b hreader =>
    split_ifs at h with hc
    cases h
    exact .giveUp hreader hc
  · next hreader => exact read_cases h hreader
  · next b hreader =>
    split_ifs at h with hl hroom
    · cases h
      exact .forsaken hreader (by simpa using hl)
    · cases h
      exact .deliver hreader (by simpa using hl) hroom
  · next info hreader =>
    cases h
    exact .report hreader
  · next hreader =>
    cases h
    exact .finish hreader
  · cases h

theorem afterSend_cases {r : Socket.Flushed} (h : t.afterSend r = some t') :
    ∃ errors writer, Sent r writer ∧ t' = { t with errors, writer } := by
  unfold afterSend at h
  split at h
  · cases h
    exact ⟨_, _, .done, rfl⟩
  · cases h
    exact ⟨_, _, .blocked, rfl⟩
  · next e =>
    split_ifs at h with he
    · cases h
      exact ⟨_, _, .fatal he, rfl⟩
    · cases h
      unfold reportError
      split_ifs
      · exact ⟨_, _, .survived (by simpa using he), rfl⟩
      · exact ⟨_, _, .survived (by simpa using he), rfl⟩

theorem stepWriter_cases (h : t.stepWriter now c = some t') : WriterStep now t c t' := by
  unfold stepWriter at h
  split at h
  · next hw =>
    split at h
    · next info hinfo =>
      cases h
      exact .obey hw hinfo
    · next hnone =>
      cases h
      exact .unasked hw hnone
  · next hw =>
    cases h
    split
    · next hc => exact .cancelled hw hc
    · next hc => exact .goOn hw (by simpa using hc)
  · next hw =>
    split at h
    · next f rest hout =>
      cases h
      exact .take hw hout
    · next hnil =>
      cases h
      exact .rest hw hnil
  · next hw =>
    split_ifs at h with hbusy
    cases h
    exact .wake hw hbusy
  · next f hw =>
    split_ifs at h with hc
    cases h
    exact .abort hw hc
  · next hw =>
    split_ifs at h with hc
    cases h
    exact .abandon hw hc
  · next f hw =>
    obtain ⟨errors, writer, hsent, rfl⟩ := afterSend_cases h
    exact .send hw rfl hsent
  · next hw =>
    split at h
    · cases h
    · next r socket hblocked hflush =>
      obtain ⟨errors, writer, hsent, rfl⟩ := afterSend_cases h
      exact .flush hw hflush hblocked hsent
  · next info hw =>
    cases h
    exact .report hw
  · next hw =>
    cases h
    exact .cancel hw
  · next info hw =>
    split at h
    · next socket hsend =>
      cases h
      exact .blockedClose hw hsend
    · next r socket hblocked hsend =>
      cases h
      exact .close hw hsend hblocked
  · next deadline hw =>
    split at h
    · split_ifs at h with hdue
      cases h
      exact .closeLate hw hdue
    · next r socket hblocked hflush =>
      cases h
      exact .closeFlushed hw hflush hblocked
  · next hw =>
    split at h
    · next socket hclose =>
      cases h
      exact .blockedLeave hw hclose
    · next r socket hblocked hclose =>
      cases h
      exact .leave hw hclose hblocked
  · next deadline hw =>
    split at h
    · split_ifs at h with hdue
      cases h
      exact .leftLate hw hdue
    · next r socket hblocked hflush =>
      cases h
      exact .left hw hflush hblocked
  · cases h

theorem enqueue_cases (f : WireFrame) (t : Transport) : EnqueueStep t f (t.enqueue f).1 (t.enqueue f).2 := by
  unfold enqueue
  split_ifs with hdone hroom
  · exact .gone hdone
  · exact .queued hdone hroom
  · exact .full hdone (Nat.le_of_not_lt hroom)

theorem stepClosing_cases {info : CloseInfo} {stage stage' : Closing}
    (h : stepClosing now info stage t = some (stage', t')) : ClosingStep now info t stage stage' t' := by
  cases stage with
  | request =>
    cases h
    exact .request
  | report =>
    cases h
    exact .report
  | join =>
    simp only [stepClosing] at h
    split_ifs at h with hjoined
    · cases h
      exact .forgo hjoined
    · cases h
      exact .join (by simpa using hjoined)
  | waiting deadline =>
    simp only [stepClosing] at h
    split_ifs at h with hdone
    cases h
    exact .joined hdone
  | cancel =>
    cases h
    exact .cancel
  | done => cases h

theorem stepCall_cases {call call' : Call} (h : Exchange.stepCall now call t = some (call', t')) :
    CallStep now t call call' t' := by
  cases call with
  | write type b stage =>
    cases stage with
    | check =>
      cases Option.some.inj h
      split
      · next hclosed => exact .turnAway hclosed
      · next hopen => exact .pass (by simpa using hopen)
    | enqueue =>
      cases Option.some.inj h
      split
      · next f hf => exact .enqueue hf (enqueue_cases f t)
      · next e he => exact .refuse he
    | finished => cases h
  | close info stage =>
    simp only [Exchange.stepCall, Option.map_eq_some_iff] at h
    obtain ⟨⟨stage', t''⟩, hclosing, heq⟩ := h
    cases heq
    exact .close (stepClosing_cases hclosing)

theorem Exchange.step_cases {m : Exchange.Move} {s s' : Exchange} (h : s.step m = some s') : ExchangeStep s m s' := by
  cases m with
  | reader c =>
    obtain ⟨t, hreader, rfl⟩ := Option.map_eq_some_iff.mp h
    exact .reader (stepReader_cases hreader)
  | writer c =>
    obtain ⟨t, hwriter, rfl⟩ := Option.map_eq_some_iff.mp h
    exact .writer (stepWriter_cases hwriter)
  | call n =>
    simp only [Exchange.step, Option.bind_eq_bind, Option.bind_eq_some_iff] at h
    obtain ⟨call, hcall, ⟨call', t⟩, hstep, h⟩ := h
    cases h
    exact .call hcall (stepCall_cases hstep)
  | begin call =>
    cases h
    exact .begin
  | takeMessage | takeError =>
    simp only [Exchange.step] at h
    split at h
    · cases h
      exact .aside rfl
    · cases h
  | stopListening | fault f | wait ms | peerVanish =>
    cases h
    exact .aside rfl
  | peerSend f =>
    cases h
    simp only [peerSend]
    split
    · exact .aside rfl
    · exact .aside rfl

/-- A write of bytes changes nothing, or adds them to the queue. -/
theorem write_binary_cases (b : Bytes) (t : Transport) : (∃ e, t.write .binary b = (.error e, t)) ∨
    t.write .binary b = (.ok (), { t with outbound := t.outbound ++ [.binary b] }) := by
  unfold write
  split_ifs with hclosed
  · exact .inl ⟨_, rfl⟩
  · unfold accept outgoing enqueue
    split_ifs with hdone hroom
    · exact .inl ⟨_, rfl⟩
    · exact .inr rfl
    · exact .inl ⟨_, rfl⟩

/-- A report is kept unless there was one before, and it touches nothing else. -/
theorem fire_eq (info : CloseInfo) (t : Transport) :
    t.fire info = { t with closure := t.closure.or (some info) } := by
  unfold fire
  split
  · next hnone => rw [hnone, Option.none_or]
  · next own hown => rw [hown, Option.some_or, ← hown]

/-! The reading task leaves the queue of the writing task alone, and the other way round. -/

theorem ReaderStep.outbound (h : ReaderStep t c t') : t'.outbound = t.outbound := by
  cases h with
  | report => rw [fire_eq]
  | _ => rfl

theorem ReaderStep.writer (h : ReaderStep t c t') : t'.writer = t.writer := by
  cases h with
  | report => rw [fire_eq]
  | _ => rfl

theorem WriterStep.reader (h : WriterStep now t c t') : t'.reader = t.reader := by
  cases h with
  | report => rw [fire_eq]
  | _ => rfl

theorem WriterStep.inbound (h : WriterStep now t c t') : t'.inbound = t.inbound := by
  cases h with
  | report => rw [fire_eq]
  | _ => rfl

theorem WriterStep.outbound (h : WriterStep now t c t') : t'.outbound <:+ t.outbound := by
  cases h with
  | take _ hout =>
    rw [hout]
    exact List.suffix_cons ..
  | report => rw [fire_eq]
  | _ => exact List.suffix_rfl

theorem ClosingStep.outbound {info : CloseInfo} {stage stage' : Closing} (h : ClosingStep now info t stage stage' t') :
    t'.outbound = t.outbound := by
  cases h with
  | report => rw [fire_eq]
  | _ => rfl

theorem ClosingStep.writer {info : CloseInfo} {stage stage' : Closing} (h : ClosingStep now info t stage stage' t') :
    t'.writer = t.writer := by
  cases h with
  | report => rw [fire_eq]
  | _ => rfl

end ChatWire.Transport
