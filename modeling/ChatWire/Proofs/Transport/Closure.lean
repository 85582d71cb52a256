import ChatWire.Proofs.Transport.Steps
import Mathlib.Tactic

/-! A connection is reported closed once. Whoever takes the next step, the cause that was reported first stays. -/

namespace ChatWire

/-! Who reports next, and what. -/

def Reader.cause? : Choice → Reader → Option CloseInfo
  | .proceed, .ending info => some info
  | _, _ => none

def Writer.cause? : Choice → Writer → Option CloseInfo
  | .proceed, .failing info => some info
  | _, _ => none

namespace Transport

def Call.cause? : Call → Option CloseInfo
  | .close info .report => some info
  | _ => none

variable {now : Nat} {c : Choice} {t t' : Transport} {info : CloseInfo}

theorem ReaderStep.closure (h : ReaderStep t c t') : t'.closure = t.closure.or (Reader.cause? c t.reader) := by
  cases h with
  | report hreader =>
    rw [hreader, fire_eq]
    rfl
  | leave hreader | giveUp hreader | answer hreader | read hreader | broken hreader | ended hreader | forsaken hreader
  | deliver hreader | finish hreader =>
    rw [hreader]
    exact (Option.or_none ..).symm

theorem WriterStep.closure (h : WriterStep now t c t') : t'.closure = t.closure.or (Writer.cause? c t.writer) := by
  cases h with
  | report hw =>
    rw [hw, fire_eq]
    rfl
  | obey hw | unasked hw | cancelled hw | goOn hw | take hw | rest hw | wake hw | abort hw | abandon hw | send hw
  | flush hw | cancel hw | blockedClose hw | close hw | closeFlushed hw | closeLate hw | blockedLeave hw | leave hw
  | left hw | leftLate hw =>
    rw [hw]
    exact (Option.or_none ..).symm

theorem ClosingStep.closure {stage stage' : Closing} (h : ClosingStep now info t stage stage' t') :
    t'.closure = t.closure.or (Call.cause? (.close info stage)) := by
  cases h with
  | report =>
    rw [fire_eq]
    rfl
  | _ => exact (Option.or_none ..).symm

theorem EnqueueStep.closure {f : WireFrame} {r : Except TransportError Unit} (h : EnqueueStep t f r t') :
    t'.closure = t.closure := by
  cases h <;> rfl

theorem CallStep.closure {call call' : Call} (h : CallStep now t call call' t') :
    t'.closure = t.closure.or call.cause? := by
  cases h with
  | turnAway | pass | refuse => exact (Option.or_none ..).symm
  | enqueue _ henqueue =>
    rw [henqueue.closure]
    exact (Option.or_none ..).symm
  | close hclosing => exact hclosing.closure

/-! What has been reported stays. -/

theorem closure_stepReader (h : t.stepReader c = some t') (hinfo : t.closure = some info) :
    t'.closure = some info := by
  rw [(stepReader_cases h).closure, hinfo, Option.some_or]

theorem closure_stepWriter (h : t.stepWriter now c = some t') (hinfo : t.closure = some info) :
    t'.closure = some info := by
  rw [(stepWriter_cases h).closure, hinfo, Option.some_or]

theorem closure_stepClosing {own : CloseInfo} {stage stage' : Closing}
    (h : stepClosing now own stage t = some (stage', t')) (hinfo : t.closure = some info) :
    t'.closure = some info := by
  rw [(stepClosing_cases h).closure, hinfo, Option.some_or]

theorem closure_write {type : FrameType} {b : Bytes} {r : Except TransportError Unit}
    (h : t.write type b = (r, t')) : t'.closure = t.closure := by
  unfold write accept at h
  split at h
  · cases h
    rfl
  · split at h
    · next f _ =>
      have hclosure := (enqueue_cases f t).closure
      rwa [h] at hclosure
    · cases h
      rfl

/-- Closing reports its own cause unless another one has been reported. -/
theorem closure_report {stage : Closing} (h : stepClosing now info .report t = some (stage, t')) :
    stage = .join ∧ t'.closure = some (t.closure.getD info) := by
  cases h
  exact ⟨rfl, closure_fire info t⟩

/-- Whether the one who closes a connection has reported it closed. -/
def Closing.hasReported : Closing → Bool
  | .request | .report => false
  | _ => true

theorem hasReported_stepClosing {stage stage' : Closing} (h : stepClosing now info stage t = some (stage', t')) :
    stage'.hasReported = (stage != .request) := by
  cases stepClosing_cases h <;> rfl

end Transport

end ChatWire
