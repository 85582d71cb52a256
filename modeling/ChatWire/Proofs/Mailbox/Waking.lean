import ChatWire.Proofs.Mailbox.Bell
import ChatWire.Proofs.Mailbox.Steps
import ChatWire.Task.Schedule

/-! Who waits for an event is not forgotten. As long as somebody waits without having been woken, there are as many
receivers about to look into the buffer, and rings to be passed on, as there are events in it. -/

namespace ChatWire

namespace Mailbox

variable {α : Type}

/-- Whether a receiver stands at the bell. -/
def Receiving.isListening : Receiving α → Bool
  | .joined | .foundEmpty | .waiting => true
  | .start | .done _ => false

def Receiving.isStart : Receiving α → Bool
  | .start => true
  | _ => false

theorem Receiving.isStart_of_isListening {r : Receiving α} (h : r.isListening) : r.isStart = false := by
  cases r with
  | start => cases h
  | joined | foundEmpty | waiting | done => rfl

end Mailbox

namespace Reception

open Mailbox (Receiving ReceiveStep)

variable {α : Type} {capacity id : Nat} {begun : List Nat} {s k : Reception α}

/-! Runs in which nobody goes away while it looks for an event. -/

/-- Whether a move makes a receiver go away in between: one that neither waits nor has finished, unless it has never
gone on. -/
def Move.interrupts (begun : List Nat) (s : Reception α) : Move α → Bool
  | .leave id =>
    match s.stage? id with
    | some .joined | some .foundEmpty => true
    | some .start => begun.contains id
    | _ => false
  | _ => false

/-- those who have gone on, after a move -/
def Move.goneOn (begun : List Nat) : Move α → List Nat
  | .go id => begun ++ [id]
  | _ => begun

/-- One move that interrupts nobody; `begun` are those who have gone on. -/
def stepOrderly (m : Move α) : List Nat × Reception α → Option (List Nat × Reception α)
  | (begun, s) => if m.interrupts begun s then none else (step m s).map fun k => (m.goneOn begun, k)

/-! What keeps a ring from being missed. -/

/-- Whether a receiver is going to look into the buffer. -/
def looks (begun : List Nat) : Nat × Receiving α → Bool
  | (_, .joined) => true
  | (id, .start) => begun.contains id
  | _ => false

/-- how many are going to look into the buffer, or to pass a ring on -/
def pending (begun : List Nat) (s : Reception α) : Nat := s.receivers.countP (looks begun) + s.box.bell.owed

/-- Whoever has come to the bell stands at it. Nobody waits unwoken at a closed stream, and nobody waits unwoken, who
has looked, unless somebody else is still going to look for each event there is. -/
structure Attentive (begun : List Nat) (s : Reception α) : Prop where
  keys : (s.receivers.map Prod.fst).Nodup
  known : ∀ id ∈ s.receivers.map Prod.fst ++ begun, id < s.next
  started : ∀ {id r}, s.stage? id = some r → r.isStart = false → id ∈ begun
  line : s.box.bell.line.Nodup
  listens : ∀ id, id ∈ s.box.bell.line ↔ (s.stage? id).any Receiving.isListening
  kept : s.box.bell.kept → s.box.bell.waiting = []
  released : s.box.closed → ∀ id ∈ s.box.bell.waiting, s.stage? id ≠ some .waiting
  covered : ∀ id ∈ s.box.bell.waiting, s.stage? id ≠ some .joined → s.box.buffer.length ≤ pending begun s

namespace Attentive

theorem empty (capacity : Nat) : Attentive [] (.empty capacity : Reception α) where
  keys := List.nodup_nil
  known := nofun
  started := nofun
  line := List.nodup_nil
  listens _ := iff_of_false nofun nofun
  kept := nofun
  released := nofun
  covered := nofun

/-! What concerns one receiver: the others stand where they did. -/

variable {o : Option (Receiving α)} {r r' : Receiving α}

theorem not_mem_line (h : Attentive begun s) (hid : (s.stage? id).any Receiving.isListening = false) :
    id ∉ s.box.bell.line := by
  rw [h.listens, hid]
  exact Bool.false_ne_true

theorem listens_moved (h : Attentive begun s) (hstage : ∀ x, k.stage? x = if x = id then o else s.stage? x)
    (hline : ∀ x, x ∈ k.box.bell.line ↔
      x = id ∧ o.any Receiving.isListening ∨ x ≠ id ∧ x ∈ s.box.bell.line) (x : Nat) :
    x ∈ k.box.bell.line ↔ (k.stage? x).any Receiving.isListening := by
  rw [hline, hstage, h.listens]
  split_ifs with hx <;> simp [hx]

theorem released_moved (h : Attentive begun s) (hstage : ∀ x, k.stage? x = if x = id then o else s.stage? x)
    (ho : o ≠ some .waiting) (hwaiting : ∀ x ∈ k.box.bell.waiting, x ≠ id → x ∈ s.box.bell.waiting)
    (hclosed : s.box.closed) : ∀ x ∈ k.box.bell.waiting, k.stage? x ≠ some .waiting := by
  intro x hx
  rw [hstage]
  split_ifs with hid
  · exact ho
  · exact h.released hclosed x (hwaiting x hx hid)

/-- What has been counted on may shrink only by the events that are gone. -/
theorem covered_moved (h : Attentive begun s) {begun' : List Nat}
    (hstage : ∀ x, k.stage? x = if x = id then o else s.stage? x)
    (hwaiting : ∀ x ∈ k.box.bell.waiting, x ≠ id → x ∈ s.box.bell.waiting)
    (hid : id ∈ k.box.bell.waiting → o = some .joined)
    (hpending : ∀ x ∈ k.box.bell.waiting,
      k.box.buffer.length + pending begun s ≤ s.box.buffer.length + pending begun' k) :
    ∀ x ∈ k.box.bell.waiting, k.stage? x ≠ some .joined → k.box.buffer.length ≤ pending begun' k := by
  intro x hx hjoined
  rw [hstage] at hjoined
  by_cases heq : x = id
  · rw [if_pos heq] at hjoined
    exact absurd (hid (heq ▸ hx)) hjoined
  · rw [if_neg heq] at hjoined
    have := h.covered x (hwaiting x hx heq) hjoined
    have := hpending x hx
    omega

/-! A receiver goes on. -/

/-- A receiver that goes on is counted as long as it is going to look. -/
theorem countP_goOn (h : Attentive begun s) (hr : s.stage? id = some r) (r' : Receiving α) (box : Mailbox α) :
    s.receivers.countP (looks begun) + (if looks begun (id, r') then 1 else 0) ≤
      (s.goOn id r' box).receivers.countP (looks (begun ++ [id])) + (if looks begun (id, r) then 1 else 0) := by
  have hreplace := Numbered.countP_replace (b := r') h.keys hr (looks begun)
  have hmore : (s.goOn id r' box).receivers.countP (looks begun) ≤
      (s.goOn id r' box).receivers.countP (looks (begun ++ [id])) := by
    apply List.countP_mono_left
    intro w _ hw
    obtain ⟨x, v⟩ := w
    cases v with
    | start => simp_all [looks]
    | joined => rfl
    | foundEmpty | waiting | done => cases hw
  rw [← hreplace]
  exact Nat.add_le_add_right hmore _

/-- What does not hang on the bell. -/
theorem goOn (h : Attentive begun s) (hr : s.stage? id = some r) {box : Mailbox α} (hline : box.bell.line.Nodup)
    (hlistens : ∀ x, x ∈ box.bell.line ↔ ((s.goOn id r' box).stage? x).any Receiving.isListening)
    (hkept : box.bell.kept → box.bell.waiting = [])
    (hreleased : box.closed → ∀ x ∈ box.bell.waiting, (s.goOn id r' box).stage? x ≠ some .waiting)
    (hcovered : ∀ x ∈ box.bell.waiting, (s.goOn id r' box).stage? x ≠ some .joined →
      box.buffer.length ≤ pending (begun ++ [id]) (s.goOn id r' box)) :
    Attentive (begun ++ [id]) (s.goOn id r' box) where
  keys := by
    rw [Reception.goOn, Numbered.keys_replace]
    exact h.keys
  known x hx := by
    rw [Reception.goOn, Numbered.keys_replace, ← List.append_assoc] at hx
    rcases List.mem_append.1 hx with hx | hx
    · exact h.known x hx
    · rw [List.mem_singleton.1 hx]
      exact h.known id (List.mem_append_left _ (List.mem_map_of_mem (Numbered.mem_of_lookup hr)))
  started {x v} hx hv := by
    rw [stage?_goOn hr] at hx
    split_ifs at hx with heq
    · exact List.mem_append_right _ (List.mem_singleton.2 heq)
    · exact List.mem_append_left _ (h.started hx hv)
  line := hline
  listens := hlistens
  kept := hkept
  released := hreleased
  covered := hcovered

theorem join (h : Attentive begun s) (hr : s.stage? id = some .start) :
    Attentive (begun ++ [id]) (s.goOn id .joined { s.box with bell := s.box.bell.join id }) := by
  have hnot : id ∉ s.box.bell.line := h.not_mem_line (by rw [hr]; rfl)
  have hstage := stage?_goOn hr .joined { s.box with bell := s.box.bell.join id }
  have hline : (s.box.bell.join id).line = s.box.bell.line ++ [id] := Bell.line_join h.kept
  have hwaiting (x : Nat) (hx : x ∈ (s.box.bell.join id).waiting) (hne : x ≠ id) : x ∈ s.box.bell.waiting := by
    unfold Bell.join at hx
    split at hx
    · exact hx
    · exact (List.mem_append.1 hx).resolve_right fun hid => hne (List.mem_singleton.1 hid)
  have howed : (s.box.bell.join id).owed = s.box.bell.owed := by
    unfold Bell.join Bell.owed
    split
    · simp [List.countP_append]
    · rfl
  refine h.goOn hr ?_ (h.listens_moved hstage ?_) ?_ (h.released_moved hstage nofun hwaiting)
    (h.covered_moved hstage hwaiting (fun _ => rfl) ?_)
  · rw [hline]
    exact List.nodup_append_comm.1 (List.nodup_cons.2 ⟨hnot, h.line⟩)
  · intro x
    change x ∈ (s.box.bell.join id).line ↔ _
    rw [hline, List.mem_append, List.mem_singleton]
    by_cases hx : x = id
    · simp [hx, Receiving.isListening]
    · simp [hx]
  · intro hkept
    change (s.box.bell.join id).kept at hkept
    unfold Bell.join at hkept
    split at hkept
    · cases hkept
    · next hunkept => exact absurd hkept hunkept
  · intro x _
    have hcount := h.countP_goOn hr .joined { s.box with bell := s.box.bell.join id }
    have hlooks : looks begun (id, (.joined : Receiving α)) := rfl
    rw [if_pos hlooks] at hcount
    change s.box.buffer.length + pending begun s ≤ s.box.buffer.length + (_ + (s.box.bell.join id).owed)
    rw [howed, pending]
    split_ifs at hcount <;> omega

/-- Who goes away from the bell is not listening any more. -/
theorem mem_line_leave (ho : o.any Receiving.isListening = false) (x : Nat) :
    x ∈ (s.box.bell.leave id).line ↔ x = id ∧ o.any Receiving.isListening ∨ x ≠ id ∧ x ∈ s.box.bell.line := by
  rw [Bell.line_leave, List.mem_filter, bne_iff_ne, ho]
  constructor
  · rintro ⟨hx, hne⟩
    exact .inr ⟨hne, hx⟩
  · rintro (⟨-, hfalse⟩ | ⟨hne, hx⟩)
    · cases hfalse
    · exact ⟨hx, hne⟩

/-- A receiver finishes, with an event or without one. -/
theorem finish (h : Attentive begun s) (hr : s.stage? id = some r) {event : Option α} {buffer : List α}
    (hbuffer : buffer.length + (if looks begun (id, r) then 1 else 0) ≤ s.box.buffer.length) :
    Attentive (begun ++ [id])
      (s.goOn id (.done event) { s.box with buffer, bell := s.box.bell.leave id }) := by
  have hstage := stage?_goOn hr (.done event) { s.box with buffer, bell := s.box.bell.leave id }
  have hwaiting (x : Nat) (hx : x ∈ (s.box.bell.leave id).waiting) (_ : x ≠ id) : x ∈ s.box.bell.waiting :=
    (Bell.mem_waiting_leave hx).1
  refine h.goOn hr ?_ (h.listens_moved hstage (mem_line_leave rfl)) (Bell.kept_leave h.kept)
    (h.released_moved hstage nofun hwaiting)
    (h.covered_moved hstage hwaiting (fun hid => absurd rfl (Bell.mem_waiting_leave hid).2) ?_)
  · change (s.box.bell.leave id).line.Nodup
    rw [Bell.line_leave]
    exact h.line.filter _
  · intro x hx
    have hcount := h.countP_goOn hr (.done event) { s.box with buffer, bell := s.box.bell.leave id }
    have howed := Bell.owed_leave h.line hx
    rw [if_neg (by exact Bool.false_ne_true)] at hcount
    change buffer.length + (_ + _) ≤ s.box.buffer.length + (_ + (s.box.bell.leave id).owed)
    omega

/-- A receiver that stays at the bell. -/
theorem mem_line_stay (h : Attentive begun s) (hr : s.stage? id = some r) (hlistens : r.isListening)
    (ho : o.any Receiving.isListening) (x : Nat) :
    x ∈ s.box.bell.line ↔ x = id ∧ o.any Receiving.isListening ∨ x ≠ id ∧ x ∈ s.box.bell.line := by
  have hid : id ∈ s.box.bell.line := (h.listens id).2 (by rw [hr]; exact hlistens)
  by_cases hx : x = id <;> simp [hx, hid, ho]

theorem miss (h : Attentive begun s) (hr : s.stage? id = some .joined) (hbuffer : s.box.buffer = []) :
    Attentive (begun ++ [id]) (s.goOn id .foundEmpty s.box) := by
  have hstage := stage?_goOn hr .foundEmpty s.box
  refine h.goOn hr h.line (h.listens_moved hstage (h.mem_line_stay hr rfl rfl)) h.kept
    (h.released_moved hstage nofun fun _ hx _ => hx) ?_
  intro x _ _
  rw [hbuffer]
  exact Nat.zero_le _

theorem rest (h : Attentive begun s) (hr : s.stage? id = some .foundEmpty) (hopen : s.box.closed = false) :
    Attentive (begun ++ [id]) (s.goOn id .waiting s.box) := by
  have hstage := stage?_goOn hr .waiting s.box
  refine h.goOn hr h.line (h.listens_moved hstage (h.mem_line_stay hr rfl rfl)) h.kept ?_ ?_
  · intro hclosed
    rw [hopen] at hclosed
    cases hclosed
  · intro x hx hjoined
    have hcount := h.countP_goOn hr .waiting s.box
    -- A receiver that has looked is covered from then on, before and after it settles down to wait.
    have hold : s.stage? x ≠ some .joined := by
      rw [hstage] at hjoined
      split_ifs at hjoined with hid
      · rw [hid, hr]
        exact nofun
      · exact hjoined
    exact (h.covered x hx hold).trans (Nat.add_le_add_right hcount _)

theorem heed (h : Attentive begun s) (hr : s.stage? id = some .waiting) (hrung : s.box.bell.isRung id) :
    Attentive (begun ++ [id]) (s.goOn id .start { s.box with bell := s.box.bell.heed id }) := by
  have hstage := stage?_goOn hr .start { s.box with bell := s.box.bell.heed id }
  have hnot : id ∉ s.box.bell.waiting :=
    (List.disjoint_of_nodup_append h.line) (Bell.isRung_iff.1 hrung)
  have hline := Bell.line_heed hnot
  have hwaiting (x : Nat) (hx : x ∈ (s.box.bell.heed id).waiting) (_ : x ≠ id) : x ∈ s.box.bell.waiting := hx
  refine h.goOn hr ?_ (h.listens_moved hstage ?_) h.kept (h.released_moved hstage nofun hwaiting)
    (h.covered_moved hstage hwaiting (fun hid => absurd hid hnot) ?_)
  · change (s.box.bell.heed id).line.Nodup
    rw [hline]
    exact h.line.filter _
  · intro x
    change x ∈ (s.box.bell.heed id).line ↔ _
    rw [hline, List.mem_filter, bne_iff_ne]
    simp [Receiving.isListening, and_comm]
  · intro x _
    have hcount := h.countP_goOn hr .start { s.box with bell := s.box.bell.heed id }
    have hbegun : looks begun (id, (.start : Receiving α)) := List.contains_iff_mem.2 (h.started hr rfl)
    have hwaits : looks begun (id, (.waiting : Receiving α)) = false := rfl
    have howed : s.box.bell.owed ≤ (s.box.bell.heed id).owed + 1 := Bell.owed_heed h.line
    rw [if_pos hbegun, hwaits, if_neg Bool.false_ne_true] at hcount
    change s.box.buffer.length + (_ + _) ≤ s.box.buffer.length + (_ + (s.box.bell.heed id).owed)
    omega

theorem go (h : Attentive begun s) (hgo : s.go id = some k) : Attentive (begun ++ [id]) k := by
  obtain ⟨r, r', box, hr, hstep, rfl⟩ := go_cases hgo
  cases hstep with
  | join => exact h.join hr
  | take hbuffer => exact h.finish hr (by simp [hbuffer, looks])
  | miss hbuffer => exact h.miss hr hbuffer
  | release => exact h.finish hr (by simp [looks])
  | rest hopen => exact h.rest hr hopen
  | heed hrung => exact h.heed hr hrung

/-! What the others do. -/

/-- Someone rings for one, after at most one event has been added. -/
theorem ring (h : Attentive begun s) {buffer : List α} {dropped : Nat}
    (hle : buffer.length ≤ s.box.buffer.length + 1) :
    Attentive begun { s with box := { s.box with buffer, dropped, bell := s.box.bell.ringOne } } where
  keys := h.keys
  known := h.known
  started := h.started
  line := by
    change s.box.bell.ringOne.line.Nodup
    rw [Bell.line_ringOne]
    exact h.line
  listens x := by
    change x ∈ s.box.bell.ringOne.line ↔ _
    rw [Bell.line_ringOne]
    exact h.listens x
  kept := Bell.kept_ringOne h.kept
  released hclosed x hx := h.released hclosed x (Bell.mem_waiting_ringOne hx)
  covered x hx hjoined := by
    have hcovered := h.covered x (Bell.mem_waiting_ringOne hx) hjoined
    have howed := Bell.owed_ringOne (List.ne_nil_of_mem (Bell.mem_waiting_ringOne hx))
    rw [pending] at hcovered
    change buffer.length ≤ s.receivers.countP (looks begun) + s.box.bell.ringOne.owed
    omega

/-- Events are taken away, and nobody rings. -/
theorem lessen (h : Attentive begun s) {buffer : List α} {dropped : Nat} (hle : buffer.length ≤ s.box.buffer.length) :
    Attentive begun { s with box := { s.box with buffer, dropped } } where
  keys := h.keys
  known := h.known
  started := h.started
  line := h.line
  listens := h.listens
  kept := h.kept
  released := h.released
  covered x hx hjoined := hle.trans (h.covered x hx hjoined)

theorem publish (h : Attentive begun s) (a : α) : Attentive begun (s.publish a).2 := by
  simp only [Reception.publish, Mailbox.publish]
  split
  · exact h.ring (by simp)
  · split
    · exact h.ring (by simp)
    · exact h.lessen (by simp)

theorem take (h : Attentive begun s) : Attentive begun s.take?.2 := by
  simp only [take?, Mailbox.take?]
  split
  · exact h
  · next a rest hbuffer => exact h.lessen (by simp [hbuffer])

/-- Who has just asked stands nowhere yet, and is not counted on. -/
theorem ask (h : Attentive begun s) : Attentive begun s.ask := by
  have hnew : s.next ∉ s.receivers.map Prod.fst ++ begun := fun hmem => (h.known _ hmem).false
  have hnone : s.stage? s.next = none :=
    Numbered.lookup_eq_none fun hmem => hnew (List.mem_append_left _ hmem)
  have hstage (x : Nat) : s.ask.stage? x = if x = s.next then some .start else s.stage? x := by
    rw [stage?, Reception.ask, Numbered.lookup_append]
    split_ifs with hx
    · rw [hx]
      exact (congrArg (Option.or · _) hnone).trans Option.none_or
    · exact Option.or_none
  have hnot : s.next ∉ s.box.bell.line := h.not_mem_line (by rw [hnone]; rfl)
  have hnotwaiting : s.next ∉ s.box.bell.waiting := fun hmem => hnot (List.mem_append_right _ hmem)
  have hlooks : looks begun (s.next, (.start : Receiving α)) = false := by
    rw [Bool.eq_false_iff]
    exact fun hbegun => hnew (List.mem_append_right _ (List.contains_iff_mem.1 hbegun))
  refine ⟨?_, ?_, ?_, h.line, h.listens_moved hstage ?_, h.kept, h.released_moved hstage (by simp) fun _ hx _ => hx,
    h.covered_moved hstage (fun _ hx _ => hx) (fun hid => absurd hid hnotwaiting) ?_⟩
  · rw [Reception.ask, List.map_append, List.nodup_append_comm]
    exact List.nodup_cons.2 ⟨fun hmem => hnew (List.mem_append_left _ hmem), h.keys⟩
  · intro x hx
    rw [Reception.ask, List.map_append, List.append_assoc, List.mem_append, List.mem_append] at hx
    change x < s.next + 1
    rcases hx with hx | hx | hx
    · exact Nat.lt_succ_of_lt (h.known x (List.mem_append_left _ hx))
    · rw [List.mem_singleton.1 hx]
      exact Nat.lt_succ_self _
    · exact Nat.lt_succ_of_lt (h.known x (List.mem_append_right _ hx))
  · intro x r hx hr
    rw [hstage] at hx
    split_ifs at hx
    · rw [← Option.some.inj hx] at hr
      cases hr
    · exact h.started hx hr
  · intro x
    change x ∈ s.box.bell.line ↔ _
    by_cases hx : x = s.next <;> simp [hx, hnot, Receiving.isListening]
  · intro x _
    simp [pending, Reception.ask, List.countP_append, hlooks]

/-- Who goes away without being in the middle of a look was not counted on, and hands a ring of its own on. -/
theorem leave (h : Attentive begun s) (hm : (Move.leave id : Move α).interrupts begun s = false) :
    Attentive begun (s.leave id) := by
  have hstage (x : Nat) := stage?_leave id x s
  have hwaiting (x : Nat) (hx : x ∈ (s.box.bell.leave id).waiting) (_ : x ≠ id) : x ∈ s.box.bell.waiting :=
    (Bell.mem_waiting_leave hx).1
  have hlooks : ¬ (s.stage? id).any fun r => looks begun (id, r) := by
    intro hany
    obtain ⟨r, hr, hlook⟩ := (Option.any_eq_true _ _).1 hany
    simp only [Move.interrupts, hr] at hm
    cases r with
    | start => exact absurd hlook (Bool.eq_false_iff.1 hm)
    | joined => cases hm
    | foundEmpty | waiting | done => cases hlook
  refine ⟨?_, ?_, ?_, ?_, h.listens_moved hstage (mem_line_leave rfl), Bell.kept_leave h.kept,
    h.released_moved hstage nofun hwaiting,
    h.covered_moved hstage hwaiting (fun hid => absurd rfl (Bell.mem_waiting_leave hid).2) ?_⟩
  · exact h.keys.sublist (List.filter_sublist.map _)
  · intro x hx
    rcases List.mem_append.1 hx with hx | hx
    · exact h.known x (List.mem_append_left _ ((List.filter_sublist.map _).subset hx))
    · exact h.known x (List.mem_append_right _ hx)
  · intro x r hx hr
    rw [hstage] at hx
    split_ifs at hx
    exact h.started hx hr
  · change (s.box.bell.leave id).line.Nodup
    rw [Bell.line_leave]
    exact h.line.filter _
  · intro x hx
    have hcount := Numbered.countP_without h.keys id (looks begun)
    have howed := Bell.owed_leave h.line hx
    rw [stage?] at hlooks
    rw [if_neg hlooks] at hcount
    change s.box.buffer.length + (_ + _) ≤
      s.box.buffer.length + ((s.receivers.filter fun w => w.1 != id).countP (looks begun) + (s.box.bell.leave id).owed)
    omega

/-- Closing wakes all who wait. -/
theorem close (h : Attentive begun s) : Attentive begun s.close where
  keys := h.keys
  known := h.known
  started := h.started
  line := by
    change s.box.bell.ringAll.line.Nodup
    rw [Bell.line_ringAll]
    exact h.line
  listens x := by
    change x ∈ s.box.bell.ringAll.line ↔ _
    rw [Bell.line_ringAll]
    exact h.listens x
  kept _ := rfl
  released _ _ hx := nomatch hx
  covered _ hx := nomatch hx

theorem reopen (h : Attentive begun s) : Attentive begun s.reopen where
  keys := h.keys
  known := h.known
  started := h.started
  line := h.line
  listens := h.listens
  kept := h.kept
  released := nofun
  covered := h.covered

theorem step {m : Move α} {r : List Nat × Reception α} (h : Attentive begun s)
    (hstep : stepOrderly m (begun, s) = some r) : Attentive r.1 r.2 := by
  simp only [stepOrderly, Option.ite_none_left_eq_some, Option.map_eq_some_iff] at hstep
  obtain ⟨hm, k, hk, rfl⟩ := hstep
  cases m with
  | go id => exact h.go hk
  | publish a =>
    cases Option.some.inj hk
    exact h.publish a
  | take =>
    cases Option.some.inj hk
    exact h.take
  | ask =>
    cases Option.some.inj hk
    exact h.ask
  | leave id =>
    cases Option.some.inj hk
    exact h.leave (by simpa using hm)
  | close =>
    cases Option.some.inj hk
    exact h.close
  | reopen =>
    cases Option.some.inj hk
    exact h.reopen
  | snapshot =>
    cases Option.some.inj hk
    exact h

/-! Where nobody can go on. -/

/-- Those who have gone on wait unwoken, or have finished. -/
theorem at_rest (hrest : ∀ id ∈ begun, s.go id = none) (hbegun : id ∈ begun) (hr : s.stage? id = some r) :
    r = .waiting ∧ s.box.bell.isRung id = false ∨ ∃ event, r = .done event :=
  Mailbox.receive_eq_none (receive_of_go_eq_none (hrest id hbegun) hr)

theorem rung_eq_nil (h : Attentive begun s) (hrest : ∀ id ∈ begun, s.go id = none) : s.box.bell.rung = [] := by
  rw [List.eq_nil_iff_forall_not_mem]
  intro ring hring
  have hmem : ring.1 ∈ s.box.bell.rung.map Prod.fst := List.mem_map_of_mem hring
  obtain ⟨r, hr, hlistens⟩ := (Option.any_eq_true _ _).1 ((h.listens ring.1).1 (List.mem_append_left _ hmem))
  have hbegun := h.started hr (Receiving.isStart_of_isListening hlistens)
  rcases at_rest hrest hbegun hr with ⟨-, hunrung⟩ | ⟨event, rfl⟩
  · rw [Bell.isRung_iff.2 hmem] at hunrung
    cases hunrung
  · cases hlistens

theorem pending_eq_zero (h : Attentive begun s) (hrest : ∀ id ∈ begun, s.go id = none) : pending begun s = 0 := by
  have howed : s.box.bell.owed = 0 := by
    rw [Bell.owed, h.rung_eq_nil hrest]
    rfl
  rw [pending, howed, Nat.add_zero, List.countP_eq_zero]
  rintro ⟨x, r⟩ hmem hlooks
  have hr : s.stage? x = some r := Numbered.lookup_of_mem h.keys hmem
  have hbegun : x ∈ begun := by
    cases r with
    | start => exact List.contains_iff_mem.1 hlooks
    | joined => exact h.started hr rfl
    | foundEmpty | waiting | done => cases hlooks
  rcases at_rest hrest hbegun hr with ⟨rfl, -⟩ | ⟨event, rfl⟩ <;> cases hlooks

end Attentive

theorem attentive_of_reaches {r : List Nat × Reception α}
    (h : Schedule.Reaches stepOrderly ([], .empty capacity) r) : Attentive r.1 r.2 := by
  induction h with
  | refl => exact .empty capacity
  | tail _ hstep ih => exact ih.step hstep

/-- When none of those who have ever gone on can go on, whoever still waits has nothing to wait for: the buffer is
empty, and the stream is open. -/
theorem nobody_waits_in_vain (h : Schedule.Reaches stepOrderly ([], .empty capacity) (begun, s))
    (hrest : ∀ id ∈ begun, s.go id = none) (hwaits : (id, .waiting) ∈ s.receivers) :
    s.box.buffer = [] ∧ s.box.closed = false := by
  have hattentive := attentive_of_reaches h
  have hstage : s.stage? id = some .waiting := Numbered.lookup_of_mem hattentive.keys hwaits
  have hwaiting : id ∈ s.box.bell.waiting := by
    have hline := (hattentive.listens id).2 (by rw [hstage]; rfl)
    rwa [Bell.line, hattentive.rung_eq_nil hrest] at hline
  constructor
  · have hcovered := hattentive.covered id hwaiting (by simp [hstage])
    rw [hattentive.pending_eq_zero hrest] at hcovered
    exact List.eq_nil_of_length_eq_zero (Nat.le_zero.1 hcovered)
  · rw [Bool.eq_false_iff]
    exact fun hclosed => hattentive.released hclosed id hwaiting hstage

/-- Two receivers wait; the one that is woken goes away, so that the other takes the event, and a third one comes. -/
def handingOnMoves : List (Move Nat) :=
  [.ask, .go 0, .go 0, .go 0, .ask, .go 1, .go 1, .go 1, .publish 7, .leave 0, .go 1, .go 1, .go 1, .ask, .go 2,
    .go 2, .go 2]

/-- what they come to -/
def handedOn : List Nat × Reception Nat :=
  ([0, 0, 0, 1, 1, 1, 1, 1, 1, 2, 2, 2],
    ⟨⟨1, [], false, 0, ⟨false, [2], []⟩⟩, 3, [(1, .done (some 7)), (2, .waiting)]⟩)

/-- The third one waits, and there is nothing for it. -/
theorem nobody_waits_in_vain_handed_on :
    Schedule.Reaches stepOrderly ([], .empty 1) handedOn ∧ (∀ id ∈ handedOn.1, handedOn.2.go id = none) ∧
      (2, .waiting) ∈ handedOn.2.receivers ∧ handedOn.2.box.buffer = [] ∧ handedOn.2.box.closed = false := by
  have hreaches : Schedule.Reaches stepOrderly ([], .empty 1) handedOn :=
    Schedule.reaches_round stepOrderly handingOnMoves ([], .empty 1)
  have hrest : ∀ id ∈ handedOn.1, handedOn.2.go id = none := by decide
  have hwaits : (2, .waiting) ∈ handedOn.2.receivers := List.mem_cons_of_mem _ (List.mem_singleton_self _)
  exact ⟨hreaches, hrest, hwaits, nobody_waits_in_vain hreaches hrest hwaits⟩

end Reception

end ChatWire
