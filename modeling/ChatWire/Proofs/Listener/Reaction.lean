import ChatWire.Listener.Reaction
import Mathlib.Tactic

/-! Which payload calls for what. -/

namespace ChatWire

namespace Reaction

/-- a payload that says that another connection has taken over -/
def IsDuplicate (b : Bytes) : Prop := ∃ f, Frame.decode? b = some f ∧ f.kind = .duplicateConnection

/-- The key that a payload brings: that of a key frame without an error, as long as there is one. -/
def keyOf? (b : Bytes) : Option CipherKey :=
  match Frame.decode? b with
  | none => none
  | some f =>
    if f.header = Header.cipherKey then
      match Envelope.parse f.body with
      | .error _ => none
      | .ok e => if e.errorCode = 0 then (e.key.filter fun k => !k.isEmpty).map CipherKey.mk else none
    else none

/-! Envelopes. -/

theorem ofEnvelope_ok {body : Bytes} {e : Envelope} (h : Envelope.parse body = .ok e) (hcode : e.errorCode = 0)
    (routed : Envelope → Reaction) : ofEnvelope body routed = routed e := by
  simp only [ofEnvelope, h, hcode, ne_eq, not_true_eq_false, if_false]

/-- An envelope that is not refused is passed on. -/
theorem ofEnvelope_eq {body : Bytes} {routed : Envelope → Reaction} {r : Reaction} (hr : ∀ x, report x ≠ r)
    (h : ofEnvelope body routed = r) : ∃ e, Envelope.parse body = .ok e ∧ e.errorCode = 0 ∧ routed e = r := by
  unfold ofEnvelope at h
  cases hparse : Envelope.parse body with
  | error f =>
    rw [hparse] at h
    exact absurd h (hr _)
  | ok e =>
    simp only [hparse] at h
    split_ifs at h with hcode
    · exact absurd h (hr _)
    · exact ⟨e, rfl, not_not.1 hcode, h⟩

theorem ofBytes_messages {b : Bytes} {f : Frame} {e : Envelope} {t : Thread} (hf : Frame.decode? b = some f)
    (hkind : f.kind = .messages t) (hparse : Envelope.parse f.body = .ok e) (hcode : e.errorCode = 0) :
    ofBytes b = .live t e := by
  simp only [ofBytes, hf, ofFrame, hkind, ofEnvelope_ok hparse hcode]

theorem ofBytes_oldMessages {b : Bytes} {f : Frame} {e : Envelope} {t : Thread} (hf : Frame.decode? b = some f)
    (hkind : f.kind = .oldMessages t) (hparse : Envelope.parse f.body = .ok e) (hcode : e.errorCode = 0) :
    ofBytes b = .backfill t e := by
  simp only [ofBytes, hf, ofFrame, hkind, ofEnvelope_ok hparse hcode]

/-! Duplicate notices. -/

theorem ofKey_ne_leave (e : Envelope) : ofKey e ≠ .leave := by
  unfold ofKey
  cases e.key with
  | none => exact Reaction.noConfusion
  | some k =>
    simp only
    split_ifs <;> exact Reaction.noConfusion

theorem ofEnvelope_ne_leave {body : Bytes} {routed : Envelope → Reaction} (h : ∀ e, routed e ≠ .leave) :
    ofEnvelope body routed ≠ .leave := by
  intro hleave
  obtain ⟨e, -, -, he⟩ := ofEnvelope_eq (fun _ => Reaction.noConfusion) hleave
  exact h e he

theorem ofBytes_eq_leave_iff {b : Bytes} : ofBytes b = .leave ↔ IsDuplicate b := by
  constructor
  · intro h
    unfold ofBytes at h
    cases hf : Frame.decode? b with
    | none => simp only [hf, reduceCtorEq] at h
    | some f =>
      refine ⟨f, hf, ?_⟩
      simp only [hf, ofFrame] at h
      cases hkind : f.kind <;> simp only [hkind, reduceCtorEq] at h
      case cipherKey => exact absurd h (ofEnvelope_ne_leave ofKey_ne_leave)
      case duplicateConnection => rfl
      all_goals exact absurd h (ofEnvelope_ne_leave fun _ => Reaction.noConfusion)
  · rintro ⟨f, hf, hkind⟩
    simp only [ofBytes, hf, ofFrame, hkind]

/-! Keys. -/

theorem kind_eq_cipherKey_iff {f : Frame} : f.kind = .cipherKey ↔ f.header = Header.cipherKey := by
  simp only [Frame.kind, Header.kind]
  split_ifs <;> simp_all

theorem ofKey_eq_rekey_iff {e : Envelope} {key : CipherKey} :
    ofKey e = .rekey key ↔ (e.key.filter fun k => !k.isEmpty).map CipherKey.mk = some key := by
  unfold ofKey
  cases e.key with
  | none => simp [ofKey.missing]
  | some k =>
    rw [Option.filter_some]
    simp only
    cases k.isEmpty <;> simp [ofKey.missing]

theorem ofBytes_eq_rekey_iff {b : Bytes} {key : CipherKey} : ofBytes b = .rekey key ↔ keyOf? b = some key := by
  unfold ofBytes keyOf?
  cases Frame.decode? b with
  | none => simp
  | some f =>
    simp only [ofFrame]
    by_cases hkind : f.header = Header.cipherKey
    · rw [kind_eq_cipherKey_iff.2 hkind, if_pos hkind]
      simp only [ofEnvelope]
      cases Envelope.parse f.body with
      | error g => simp
      | ok e => by_cases hcode : e.errorCode = 0 <;> simp only [hcode, ne_eq, not_true_eq_false, not_false_eq_true,
          if_true, if_false, ofKey_eq_rekey_iff, reduceCtorEq]
    · rw [if_neg hkind]
      refine iff_of_false (fun h => ?_) (Option.some_ne_none key).symm
      have hne := mt kind_eq_cipherKey_iff.1 hkind
      cases hk : f.kind <;> simp only [hk, reduceCtorEq] at h
      case cipherKey => exact hne hk
      all_goals
        obtain ⟨e, -, -, he⟩ := ofEnvelope_eq (fun _ => Reaction.noConfusion) h
        cases he

end Reaction

theorem batchEvents_ok (op : Operation) (events : Batch → List Event) {e : Envelope} {key : Option CipherKey}
    {b : Batch} (h : e.decode Batch.reading key = .ok b) : batchEvents op events e key = events b := by
  simp only [batchEvents, h]

theorem batchEvents_error (op : Operation) (events : Batch → List Event) {e : Envelope} {key : Option CipherKey}
    {error : DecodeError} (h : e.decode Batch.reading key = .error error) :
    batchEvents op events e key = [.error (.decode op error)] := by
  simp only [batchEvents, h]

end ChatWire
