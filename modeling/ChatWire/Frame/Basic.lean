import ChatWire.Bytes.Basic

/-! Frames: a version, a command with its low byte first, a subcommand, and the body. The three numbers of
a frame say what it is for. -/

namespace ChatWire

/-- The two kinds of conversation. -/
inductive Thread
  | user
  | group
  deriving DecidableEq, Repr

structure Header where
  version : UInt8
  command : UInt16
  subcommand : UInt8
  deriving DecidableEq, Repr

structure Frame where
  header : Header
  body : Bytes
  deriving DecidableEq, Repr

inductive FrameKind
  | cipherKey
  | ping
  | messages (thread : Thread)
  | oldMessages (thread : Thread)
  | oldReactions (thread : Thread)
  | duplicateConnection
  | unknown
  deriving DecidableEq, Repr

namespace Header

def size : Nat := 4

def encode (h : Header) : Bytes :=
  [h.version, UInt8.ofNat (h.command.toNat % 256), UInt8.ofNat (h.command.toNat / 256), h.subcommand]

def cipherKey : Header := ⟨1, 1, 1⟩
def ping : Header := ⟨1, 2, 1⟩
def duplicateConnection : Header := ⟨1, 3000, 0⟩

def messages : Thread → Header
  | .user => ⟨1, 501, 0⟩
  | .group => ⟨1, 521, 0⟩

def oldMessages : Thread → Header
  | .user => ⟨1, 510, 1⟩
  | .group => ⟨1, 511, 1⟩

def oldReactions : Thread → Header
  | .user => ⟨1, 610, 1⟩
  | .group => ⟨1, 611, 1⟩

def kind (h : Header) : FrameKind :=
  if h = cipherKey then .cipherKey
  else if h = ping then .ping
  else if h = messages .user then .messages .user
  else if h = messages .group then .messages .group
  else if h = oldMessages .user then .oldMessages .user
  else if h = oldMessages .group then .oldMessages .group
  else if h = oldReactions .user then .oldReactions .user
  else if h = oldReactions .group then .oldReactions .group
  else if h = duplicateConnection then .duplicateConnection
  else .unknown

end Header

namespace Frame

def kind (f : Frame) : FrameKind := f.header.kind

def encode (f : Frame) : Bytes := f.header.encode ++ f.body

/-- Fails only on what is shorter than a header. -/
def decode? : Bytes → Option Frame
  | v :: low :: high :: s :: body =>
    some ⟨⟨v, UInt16.ofNat (low.toNat + 256 * high.toNat), s⟩, body⟩
  | _ => none

theorem decode?_encode (f : Frame) : decode? f.encode = some f := by
  obtain ⟨⟨v, c, s⟩, b⟩ := f
  have h : c.toNat < 65536 := c.toNat_lt
  simp only [encode, Header.encode, decode?, List.cons_append, List.nil_append, Option.some.injEq,
    Frame.mk.injEq, Header.mk.injEq, and_true, true_and]
  apply UInt16.toNat_inj.1
  simp only [UInt8.toNat_ofNat', UInt16.toNat_ofNat']
  omega

theorem decode?_eq_none_iff {b : Bytes} : decode? b = none ↔ b.length < Header.size := by
  match b with
  | [] | [_] | [_, _] | [_, _, _] => simp [decode?, Header.size]
  | _ :: _ :: _ :: _ :: _ => simp [decode?, Header.size]

/-- No byte is lost. -/
theorem encode_of_decode? {b : Bytes} {f : Frame} (h : decode? b = some f) : f.encode = b := by
  match b, h with
  | v :: low :: high :: s :: body, h =>
    obtain rfl := Option.some.inj h
    have hlow := low.toNat_lt
    have hhigh := high.toNat_lt
    have hcommand : (UInt16.ofNat (low.toNat + 256 * high.toNat)).toNat = low.toNat + 256 * high.toNat := by
      rw [UInt16.toNat_ofNat']
      omega
    have hmod : (low.toNat + 256 * high.toNat) % 256 = low.toNat := by omega
    have hdiv : (low.toNat + 256 * high.toNat) / 256 = high.toNat := by omega
    simp only [encode, Header.encode, hcommand, hmod, hdiv, UInt8.ofNat_toNat, List.cons_append, List.nil_append]

end Frame

end ChatWire
