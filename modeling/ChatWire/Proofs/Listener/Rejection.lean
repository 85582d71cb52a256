import ChatWire.Proofs.Listener.Handling

/-! Payloads that are refused. One of them leaves an error report behind and nothing else, and what comes after
it does not notice. -/

namespace ChatWire

/-- Whether frames of a kind bring an envelope. -/
def FrameKind.isRouted : FrameKind → Bool
  | .cipherKey | .messages _ | .oldMessages _ | .oldReactions _ => true
  | .unknown | .ping | .duplicateConnection => false

namespace Reaction

/-- Whether a payload is refused, as long as the connection has the given key. -/
inductive Rejected (key : Option CipherKey) (b : Bytes) : Prop
  | short : b.length < Header.size → Rejected key b
  | malformed {f : Frame} {fault : Json.Fault} : Frame.decode? b = some f → f.kind.isRouted →
      Envelope.parse f.body = .error fault → Rejected key b
  | failed {f : Frame} {e : Envelope} : Frame.decode? b = some f → f.kind.isRouted →
      Envelope.parse f.body = .ok e → e.errorCode ≠ 0 → Rejected key b
  | keyless {f : Frame} {e : Envelope} : Frame.decode? b = some f → f.kind = .cipherKey →
      Envelope.parse f.body = .ok e → e.key = none ∨ e.key = some "" → Rejected key b
  | undecodable {f : Frame} {e : Envelope} {t : Thread} {error : DecodeError} : Frame.decode? b = some f →
      f.kind = .messages t ∨ f.kind = .oldMessages t → Envelope.parse f.body = .ok e →
      e.decode Batch.reading key = .error error → Rejected key b

theorem ofBytes_routed {b : Bytes} {f : Frame} (hf : Frame.decode? b = some f) (h : f.kind.isRouted) :
    ∃ routed, ofBytes b = ofEnvelope f.body routed := by
  simp only [ofBytes, hf, ofFrame]
  cases hkind : f.kind with
  | unknown | ping | duplicateConnection => simp [hkind, FrameKind.isRouted] at h
  | cipherKey | messages | oldMessages | oldReactions => exact ⟨_, rfl⟩

theorem ofEnvelope_malformed {body : Bytes} {fault : Json.Fault} (h : Envelope.parse body = .error fault)
    (routed : Envelope → Reaction) : ofEnvelope body routed = report (.decode .envelope (.envelope fault)) := by
  simp only [ofEnvelope, h]

theorem ofEnvelope_failed {body : Bytes} {e : Envelope} (h : Envelope.parse body = .ok e) (hcode : e.errorCode ≠ 0)
    (routed : Envelope → Reaction) : ofEnvelope body routed = report (.server e.errorCode e.errorMessage) := by
  simp only [ofEnvelope, h, hcode, ne_eq, not_false_eq_true, if_true]

theorem ofKey_missing {e : Envelope} (h : e.key = none ∨ e.key = some "") :
    ofKey e = report (.decode .cipherKey .noKeyInFrame) := by
  rcases h with h | h <;> rw [ofKey, h] <;> rfl

end Reaction

namespace Listener

open Reaction (Rejected IsDuplicate)

variable {world : Surroundings} {parent : Token} {link : Nat}

/-- A refused payload is reported. -/
theorem handle_of_rejected {l : Listener} {b : Bytes} (h : Rejected l.cipherKey? b) :
    ∃ r, ∀ link, l.handle link b = (.publishing link [.error r] none, l) := by
  have hreport {r : ListenerError} (hr : Reaction.ofBytes b = .report r) (link : Nat) :
      l.handle link b = (.publishing link [.error r] none, l) := by
    rw [handle, hr]
  cases h with
  | short h => exact ⟨_, hreport (by rw [Reaction.ofBytes, Frame.decode?_eq_none_iff.2 h])⟩
  | malformed hf hkind hparse =>
    obtain ⟨routed, hr⟩ := Reaction.ofBytes_routed hf hkind
    exact ⟨_, hreport (hr.trans (Reaction.ofEnvelope_malformed hparse routed))⟩
  | failed hf hkind hparse hcode =>
    obtain ⟨routed, hr⟩ := Reaction.ofBytes_routed hf hkind
    exact ⟨_, hreport (hr.trans (Reaction.ofEnvelope_failed hparse hcode routed))⟩
  | @keyless f e hf hkind hparse hkey =>
    have hr : Reaction.ofBytes b = Reaction.ofEnvelope f.body Reaction.ofKey := by
      simp only [Reaction.ofBytes, hf, Reaction.ofFrame, hkind]
    by_cases hcode : e.errorCode = 0
    · have hroute := Reaction.ofEnvelope_ok hparse hcode Reaction.ofKey
      exact ⟨_, hreport (hr.trans (hroute.trans (Reaction.ofKey_missing hkey)))⟩
    · exact ⟨_, hreport (hr.trans (Reaction.ofEnvelope_failed hparse hcode _))⟩
  | @undecodable f e t error hf hkind hparse herror =>
    by_cases hcode : e.errorCode = 0
    · rcases hkind with hkind | hkind
      · refine ⟨.decode .messageBatch error, ?_⟩
        intro link
        rw [handle_live (Reaction.ofBytes_messages hf hkind hparse hcode), batchEvents_error _ _ herror]
      · refine ⟨.decode .oldMessages error, ?_⟩
        intro link
        rw [handle_backfill (Reaction.ofBytes_oldMessages hf hkind hparse hcode), batchEvents_error _ _ herror]
    · have hrouted : f.kind.isRouted := by rcases hkind with hkind | hkind <;> rw [hkind] <;> rfl
      obtain ⟨routed, hr⟩ := Reaction.ofBytes_routed hf hrouted
      exact ⟨_, hreport (hr.trans (Reaction.ofEnvelope_failed hparse hcode routed))⟩

theorem absorb_of_rejected {l : Listener} {b : Bytes} (h : Rejected l.cipherKey? b) :
    ∃ r, ¬ IsDuplicate b ∧ ∀ link, l.absorb link b = l.publish (.error r) := by
  obtain ⟨r, hr⟩ := handle_of_rejected h
  refine ⟨r, ?_, ?_⟩
  · rw [← Reaction.ofBytes_eq_leave_iff]
    intro hleave
    have := hr 0
    rw [handle, hleave] at this
    cases this
  · intro link
    simp only [absorb, hr]
    rfl

/-- Whatever else is published, the other streams do not see what an error stream holds. -/
theorem publish_error_stream (es : List Event) (s : Events) (t : Mailbox ListenerError) :
    ∃ u, es.foldl (fun s e => s.publish e) { s with error := t } =
      { es.foldl (fun s e => s.publish e) s with error := u } := by
  induction es generalizing s t with
  | nil => exact ⟨t, rfl⟩
  | cons e r ih =>
    have hfirst : ∃ u, ({ s with error := t } : Events).publish e = { s.publish e with error := u } := by
      cases e <;> exact ⟨_, rfl⟩
    obtain ⟨u, hu⟩ := hfirst
    rw [List.foldl_cons, List.foldl_cons, hu]
    exact ih (s.publish e) u

/-- A refused payload between others adds one report at its place, which the error stream takes there. All else is as if
it had not come: the connection with its key and its count, the tokens and the tasks, and every other stream. -/
theorem rejected_reports_once (world : Surroundings) (parent : Token) (link : Nat) {xs ys : List Bytes}
    (hxs : ∀ x ∈ xs, ¬ IsDuplicate x) (hys : ∀ y ∈ ys, ¬ IsDuplicate y) (l : Listener) :
    ∃ m before, Handles world parent link xs l m ∧ m.history = l.history ++ before ∧
      ∀ b, Rejected m.cipherKey? b → ∃ n n' after report,
        Handles world parent link (xs ++ ys) l n ∧ Handles world parent link (xs ++ b :: ys) l n' ∧
          n.history = l.history ++ before ++ after ∧
          n'.history = l.history ++ before ++ .error report :: after ∧
          Events.Takes (before ++ after) l.events n.events ∧
          Events.Takes (before ++ .error report :: after) l.events n'.events ∧
          n' = { n with history := n'.history, events := { n.events with error := n'.events.error } } := by
  have hm : Handles world parent link xs l (l.absorbAll link xs) := handles_absorbAll hxs l
  refine ⟨l.absorbAll link xs, l.eventsOfAll link xs, hm, history_absorbAll xs l, ?_⟩
  intro b hb
  set m := l.absorbAll link xs with hmdef
  obtain ⟨r, hdup, hr⟩ := absorb_of_rejected hb
  have hm' : Events.Takes (l.eventsOfAll link xs) l.events m.events := takes_absorbAll xs l
  have hafter : (m.publish (.error r)).absorbAll link ys = (m.absorbAll link ys).withPast
      ((m.eventsOfAll link ys).foldl (fun s e => s.publish e) (m.events.publish (.error r)))
      (m.history ++ [.error r] ++ m.eventsOfAll link ys) :=
    absorbAll_withPast (m.events.publish (.error r)) (m.history ++ [.error r]) ys m
  refine ⟨m.absorbAll link ys, (m.publish (.error r)).absorbAll link ys, m.eventsOfAll link ys, r,
    handles_append hxs (handles_absorbAll hys m), handles_append hxs (.next (works_handling hdup m) ?_), ?_, ?_,
    hm'.trans (takes_absorbAll ys m), ?_, ?_⟩
  · rw [hr]
    exact handles_absorbAll hys _
  · rw [history_absorbAll, hmdef, history_absorbAll]
  · rw [hafter]
    simp only [withPast, hmdef, history_absorbAll, List.append_assoc, List.singleton_append]
  · rw [hafter]
    exact hm'.trans (.foldl (.error r :: m.eventsOfAll link ys) m.events)
  · obtain ⟨u, hu⟩ := publish_error_stream (m.eventsOfAll link ys) m.events (m.events.error.publish r).2
    rw [← events_absorbAll] at hu
    rw [hafter, Events.publish, hu]
    rfl

/-- A payload of no bytes between a ping and a key frame that has no key. -/
theorem rejected_reports_once_empty :
    let world : Surroundings := ⟨fun _ _ => ⟨0, none⟩, fun _ => 0⟩
    let l := plainListener "7" false
    let xs : List Bytes := [Header.ping.encode]
    let ys : List Bytes := [Header.cipherKey.encode ++ [123, 125]]
    ((∀ x ∈ xs, ¬ IsDuplicate x) ∧ (∀ y ∈ ys, ¬ IsDuplicate y)) ∧ ∃ n n' before after report,
      Handles world ⟨[]⟩ 0 (xs ++ ys) l n ∧ Handles world ⟨[]⟩ 0 (xs ++ [] :: ys) l n' ∧
        n.history = before ++ after ∧ n'.history = before ++ .error report :: after ∧
          Events.Takes (before ++ after) l.events n.events ∧
            Events.Takes (before ++ .error report :: after) l.events n'.events := by
  intro world l xs ys
  have hxs : ∀ x ∈ xs, ¬ IsDuplicate x := by
    refine List.forall_mem_singleton.2 ?_
    rintro ⟨f, hf, hkind⟩
    obtain rfl := Option.some.inj hf
    revert hkind
    decide
  have hys : ∀ y ∈ ys, ¬ IsDuplicate y := by
    refine List.forall_mem_singleton.2 ?_
    rintro ⟨f, hf, hkind⟩
    obtain rfl := Option.some.inj hf
    revert hkind
    decide
  obtain ⟨m, before, -, -, hm⟩ := rejected_reports_once world ⟨[]⟩ 0 hxs hys l
  obtain ⟨n, n', after, report, hn, hn', hafter, hafter', htakes, htakes', -⟩ := hm [] (.short (by decide))
  exact ⟨⟨hxs, hys⟩, n, n', before, after, report, hn, hn', hafter, hafter', htakes, htakes'⟩

end Listener

end ChatWire
