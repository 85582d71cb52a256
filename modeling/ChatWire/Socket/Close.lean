/-! How sockets are closed: with a code and a reason. -/

namespace ChatWire

structure CloseInfo where
  code : Nat
  reason : String
  deriving DecidableEq, Repr

namespace CloseCode

def manual : Nat := 1000
def protocolViolation : Nat := 1002
def noStatus : Nat := 1005
def abnormal : Nat := 1006
def duplicateConnection : Nat := 3000
def kicked : Nat := 3003

/-- codes after which nobody tries again, whatever the rules say -/
def final : List Nat := [duplicateConnection, kicked]

/-- Codes that may travel in a close frame. -/
def isAllowed (code : Nat) : Bool :=
  (1000 ≤ code && code ≤ 1013 && !List.contains [1004, noStatus, abnormal] code)
    || (3000 ≤ code && code < 5000)

end CloseCode

namespace CloseInfo

def text (c : CloseInfo) : String :=
  if c.reason.isEmpty then "code " ++ toString c.code
  else "code " ++ toString c.code ++ " (" ++ c.reason ++ ")"

/-- What a close frame is taken for by the one who receives it first. -/
def permitted (c : CloseInfo) : CloseInfo :=
  if CloseCode.isAllowed c.code then c else ⟨CloseCode.protocolViolation, "Protocol violation"⟩

theorem isAllowed_permitted (c : CloseInfo) : CloseCode.isAllowed c.permitted.code := by
  unfold permitted
  split
  · assumption
  · decide

/-- The socket closed without a close frame. -/
def abnormal (reason : String) : CloseInfo := ⟨CloseCode.abnormal, reason⟩

def noStatus : CloseInfo := ⟨CloseCode.noStatus, ""⟩

end CloseInfo

end ChatWire
