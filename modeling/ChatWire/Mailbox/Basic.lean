import ChatWire.Mailbox.Bell

/-! Bounded streams of events. Publishing never waits: a full stream gives up its oldest event. Closing
releases those who wait but neither empties the stream nor keeps it from being published to. -/

namespace ChatWire

inductive Outcome
  | delivered
  | droppedOldest
  | droppedNewest
  deriving DecidableEq, Repr

structure Mailbox (α : Type) where
  capacity : Nat
  buffer : List α
  closed : Bool
  dropped : Nat
  bell : Bell
  deriving Repr

namespace Mailbox

variable {α : Type}

def empty (capacity : Nat) : Mailbox α := ⟨capacity, [], false, 0, .quiet⟩

/-- Without any capacity the published event itself is lost, and nobody is woken. -/
def publish (a : α) (m : Mailbox α) : Outcome × Mailbox α :=
  if m.buffer.length < m.capacity then
    (.delivered, { m with buffer := m.buffer ++ [a], bell := m.bell.ringOne })
  else
    let rest := m.buffer.drop 1
    if rest.length < m.capacity then
      (.droppedOldest,
        { m with buffer := rest ++ [a], dropped := m.dropped + 1, bell := m.bell.ringOne })
    else (.droppedNewest, { m with buffer := rest, dropped := m.dropped + 1 })

/-- The oldest event, if there is one. -/
def take? (m : Mailbox α) : Option α × Mailbox α :=
  match m.buffer with
  | [] => (none, m)
  | a :: r => (some a, { m with buffer := r })

/-- what is buffered, oldest first; nothing is taken -/
def snapshot (m : Mailbox α) : List α := m.buffer

/-- What is left once all events are taken. -/
def drained (m : Mailbox α) : Mailbox α := { m with buffer := [] }

def close (m : Mailbox α) : Mailbox α := { m with closed := true, bell := m.bell.ringAll }

def reopen (m : Mailbox α) : Mailbox α := { m with closed := false }

/-- The state of someone who asks for the next event: about to join the bell, about to look into the
buffer, about to look whether the stream is closed, waiting, or finished with an event or with none. -/
inductive Receiving (α : Type)
  | start
  | joined
  | foundEmpty
  | waiting
  | done (event : Option α)
  deriving Repr

/-- One step of receiver `id`; `none` when it has to wait or has finished. Joining the bell before looking
at the buffer is what keeps a ring from being missed. -/
def receive (id : Nat) : Receiving α → Mailbox α → Option (Receiving α × Mailbox α)
  | .start, m => some (.joined, { m with bell := m.bell.join id })
  | .joined, m =>
    match m.take? with
    | (some a, m) => some (.done (some a), { m with bell := m.bell.leave id })
    | (none, m) => some (.foundEmpty, m)
  | .foundEmpty, m =>
    if m.closed then some (.done none, { m with bell := m.bell.leave id }) else some (.waiting, m)
  | .waiting, m => if m.bell.isRung id then some (.start, { m with bell := m.bell.heed id }) else none
  | .done _, _ => none

/-- Whether a receiver neither waits nor has finished. -/
def Receiving.isMoving : Receiving α → Bool
  | .start | .joined | .foundEmpty => true
  | .waiting | .done _ => false

/-- What a receiver that has finished was given. -/
def Receiving.result? : Receiving α → Option (Option α)
  | .done event => some event
  | _ => none

/-! What a stream has taken in is in its buffer, was given up, or was taken out. -/

@[simp] theorem capacity_publish (a : α) (m : Mailbox α) : (m.publish a).2.capacity = m.capacity := by
  unfold publish
  split
  · rfl
  · dsimp only
    split <;> rfl

theorem length_publish_le (a : α) {m : Mailbox α} (h : m.buffer.length ≤ m.capacity) :
    (m.publish a).2.buffer.length ≤ m.capacity := by
  unfold publish
  split
  · simp only [List.length_append, List.length_singleton]
    omega
  · dsimp only
    split
    · simp only [List.length_append, List.length_singleton]
      omega
    · exact Nat.le_trans (by simp) h

theorem length_add_dropped_publish (a : α) {m : Mailbox α} (h : m.buffer.length ≤ m.capacity) :
    (m.publish a).2.buffer.length + (m.publish a).2.dropped = m.buffer.length + m.dropped + 1 := by
  unfold publish
  split
  · simp only [List.length_append, List.length_singleton]
    omega
  · dsimp only
    split <;> simp only [List.length_append, List.length_singleton, List.length_drop] at * <;> omega

theorem buffer_take? (m : Mailbox α) : m.take?.1.toList ++ m.take?.2.buffer = m.buffer := by
  unfold take?
  split <;> simp_all

theorem dropped_take? (m : Mailbox α) : m.take?.2.dropped = m.dropped := by
  unfold take?
  split <;> rfl

end Mailbox

end ChatWire
