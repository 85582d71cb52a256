import ChatWire.Listener.Events

/-! What is in the streams once something was published. Each event goes to the stream of its kind and to no other; of
those that went to it, a stream holds the newest, as many as there is room for, and counts the others. Closing and
opening again changes nothing about that. -/

namespace ChatWire

/-! One stream. -/

namespace Mailbox

variable {α : Type} {capacity : Nat} {as : List α} {m : Mailbox α}

/-- what is left of a stream after some events, published one after the other -/
def publishAll (as : List α) (m : Mailbox α) : Mailbox α := as.foldl (fun m a => (m.publish a).2) m

/-- A stream with room for `capacity` events that `as` were published to, since it was empty. -/
structure Retains (capacity : Nat) (as : List α) (m : Mailbox α) : Prop where
  capacity_eq : m.capacity = capacity
  buffer_eq : m.buffer = as.drop (as.length - capacity)
  dropped_eq : m.dropped = as.length - capacity

namespace Retains

theorem empty (capacity : Nat) : Retains capacity ([] : List α) (.empty capacity) :=
  ⟨rfl, List.drop_nil.symm, (Nat.zero_sub capacity).symm⟩

theorem close (h : Retains capacity as m) : Retains capacity as m.close := ⟨h.capacity_eq, h.buffer_eq, h.dropped_eq⟩

theorem reopen (h : Retains capacity as m) : Retains capacity as m.reopen := ⟨h.capacity_eq, h.buffer_eq, h.dropped_eq⟩

theorem length_buffer (h : Retains capacity as m) : m.buffer.length = as.length - (as.length - capacity) := by
  rw [h.buffer_eq, List.length_drop]

/-- What is given up where there is no room is the oldest event. -/
theorem buffer_publish (h : Retains capacity as m) (a : α) :
    (m.publish a).2.buffer = (as ++ [a]).drop ((as ++ [a]).length - capacity) := by
  have hlength := h.length_buffer
  have hcapacity := h.capacity_eq
  rw [List.length_append, List.length_singleton, Mailbox.publish]
  split
  · have hall : as.length - capacity = 0 := by omega
    rw [h.buffer_eq, hall, Nat.sub_eq_zero_of_le (by omega)]
    rfl
  · have hrest : m.buffer.drop 1 = as.drop (as.length - capacity + 1) := by rw [h.buffer_eq, List.drop_drop]
    simp only [hrest, List.length_drop]
    split
    · rw [List.drop_append_of_le_length (by omega), Nat.sub_add_comm (by omega)]
    · -- Without any capacity nothing is ever there.
      rw [List.drop_eq_nil_of_le (by omega), List.drop_eq_nil_of_le]
      rw [List.length_append, List.length_singleton]
      omega

theorem publish (h : Retains capacity as m) (a : α) : Retains capacity (as ++ [a]) (m.publish a).2 := by
  have hlength := h.length_buffer
  have hcapacity := h.capacity_eq
  refine ⟨(capacity_publish a m).trans hcapacity, h.buffer_publish a, ?_⟩
  have hcount := length_add_dropped_publish a (m := m) (by omega)
  rw [h.buffer_publish a, List.length_drop, h.dropped_eq] at hcount
  rw [List.length_append, List.length_singleton] at hcount ⊢
  omega

end Retains

theorem publishAll_append (as bs : List α) (m : Mailbox α) :
    m.publishAll (as ++ bs) = (m.publishAll as).publishAll bs := List.foldl_append

/-- A stream that holds the newest of what was published to it still does when more is published. -/
theorem Retains.publishAll (h : Retains capacity as m) (bs : List α) : Retains capacity (as ++ bs) (m.publishAll bs) := by
  induction bs generalizing as m with
  | nil => rwa [List.append_nil]
  | cons b r ih =>
    have hrest := ih (h.publish b)
    rwa [List.append_assoc, List.singleton_append] at hrest

end Mailbox

/-! All of them. -/

namespace Event

def connected? : Event → Option String
  | .connected endpoint => some endpoint
  | _ => none

def disconnected? : Event → Option CloseInfo
  | .disconnected info => some info
  | _ => none

def closed? : Event → Option CloseInfo
  | .closed info => some info
  | _ => none

def error? : Event → Option ListenerError
  | .error e => some e
  | _ => none

def message? : Event → Option Message
  | .message m => some m
  | _ => none

def undo? : Event → Option Undo
  | .undo u => some u
  | _ => none

def cipherKey? : Event → Option CipherKey
  | .cipherKey key => some key
  | _ => none

def oldMessages? : Event → Option OldMessages
  | .oldMessages o => some o
  | _ => none

end Event

namespace Events

open Mailbox (Retains)

variable {capacity : Nat} {es fs past : List Event} {s s' s'' : Events}

/-- Each stream was empty once, and since then those of `es` that are of its kind were published to it. -/
structure Holds (capacity : Nat) (es : List Event) (s : Events) : Prop where
  connected : Retains capacity (es.filterMap Event.connected?) s.connected
  disconnected : Retains capacity (es.filterMap Event.disconnected?) s.disconnected
  closed : Retains capacity (es.filterMap Event.closed?) s.closed
  error : Retains capacity (es.filterMap Event.error?) s.error
  message : Retains capacity (es.filterMap Event.message?) s.message
  undo : Retains capacity (es.filterMap Event.undo?) s.undo
  cipherKey : Retains capacity (es.filterMap Event.cipherKey?) s.cipherKey
  oldMessages : Retains capacity (es.filterMap Event.oldMessages?) s.oldMessages

/-- From `s` to `s'` those of `es` that are of its kind were published to each stream, one after the other. -/
structure Takes (es : List Event) (s s' : Events) : Prop where
  connected : s'.connected = s.connected.publishAll (es.filterMap Event.connected?)
  disconnected : s'.disconnected = s.disconnected.publishAll (es.filterMap Event.disconnected?)
  closed : s'.closed = s.closed.publishAll (es.filterMap Event.closed?)
  error : s'.error = s.error.publishAll (es.filterMap Event.error?)
  message : s'.message = s.message.publishAll (es.filterMap Event.message?)
  undo : s'.undo = s.undo.publishAll (es.filterMap Event.undo?)
  cipherKey : s'.cipherKey = s.cipherKey.publishAll (es.filterMap Event.cipherKey?)
  oldMessages : s'.oldMessages = s.oldMessages.publishAll (es.filterMap Event.oldMessages?)

namespace Takes

theorem refl (s : Events) : Takes [] s s := ⟨rfl, rfl, rfl, rfl, rfl, rfl, rfl, rfl⟩

theorem publish (e : Event) (s : Events) : Takes [e] s (s.publish e) := by
  cases e <;> exact ⟨rfl, rfl, rfl, rfl, rfl, rfl, rfl, rfl⟩

theorem trans (h : Takes es s s') (h' : Takes fs s' s'') : Takes (es ++ fs) s s'' := by
  constructor <;> rw [List.filterMap_append, Mailbox.publishAll_append]
  · rw [h'.connected, h.connected]
  · rw [h'.disconnected, h.disconnected]
  · rw [h'.closed, h.closed]
  · rw [h'.error, h.error]
  · rw [h'.message, h.message]
  · rw [h'.undo, h.undo]
  · rw [h'.cipherKey, h.cipherKey]
  · rw [h'.oldMessages, h.oldMessages]

/-- Publishing some events leaves in each stream what publishing its own to it leaves. -/
theorem foldl (es : List Event) (s : Events) : Takes es s (es.foldl (fun s e => s.publish e) s) := by
  induction es generalizing s with
  | nil => exact refl s
  | cons e r ih => exact (publish e s).trans (ih (s.publish e))

end Takes

namespace Holds

theorem empty (capacity : Nat) : Holds capacity [] (Events.empty capacity) :=
  ⟨.empty _, .empty _, .empty _, .empty _, .empty _, .empty _, .empty _, .empty _⟩

theorem close (h : Holds capacity es s) : Holds capacity es s.close :=
  ⟨h.connected.close, h.disconnected.close, h.closed.close, h.error.close, h.message.close, h.undo.close,
    h.cipherKey.close, h.oldMessages.close⟩

theorem reopen (h : Holds capacity es s) : Holds capacity es s.reopen :=
  ⟨h.connected.reopen, h.disconnected.reopen, h.closed.reopen, h.error.reopen, h.message.reopen, h.undo.reopen,
    h.cipherKey.reopen, h.oldMessages.reopen⟩

/-- What a stream takes is held with what came before. -/
theorem take (h : Holds capacity past s) (ht : Takes es s s') : Holds capacity (past ++ es) s' := by
  constructor <;> rw [List.filterMap_append]
  · exact ht.connected ▸ h.connected.publishAll _
  · exact ht.disconnected ▸ h.disconnected.publishAll _
  · exact ht.closed ▸ h.closed.publishAll _
  · exact ht.error ▸ h.error.publishAll _
  · exact ht.message ▸ h.message.publishAll _
  · exact ht.undo ▸ h.undo.publishAll _
  · exact ht.cipherKey ▸ h.cipherKey.publishAll _
  · exact ht.oldMessages ▸ h.oldMessages.publishAll _

end Holds

end Events

end ChatWire
