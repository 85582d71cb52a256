import ChatWire.Retry.Settings
import ChatWire.Socket.Close

/-! Retry budgets. Every close code with a rule has one; it shrinks with each retry granted and is
restored only by a reset. -/

namespace ChatWire

/-- A rule and the number of connections it has allowed. -/
structure Budget where
  rule : RetryRule
  attempts : Nat
  deriving DecidableEq, Repr

namespace Budget

def full (rule : RetryRule) : Budget := ⟨rule, 1⟩

def exhausted (b : Budget) : Bool := b.rule.max ≤ b.attempts

/-- The delay of the next retry; the last one given serves for all that follow. -/
def delay (b : Budget) : Nat := (b.rule.times[b.attempts - 1]?).getD (b.rule.times.getLastD 0)

def spend (b : Budget) : Budget := { b with attempts := b.attempts + 1 }

end Budget

/-- The budgets by code. -/
structure RetryPolicy where
  budgets : List (Nat × Budget)
  deriving DecidableEq, Repr

namespace RetryPolicy

def none : RetryPolicy := ⟨[]⟩

/-- A later rule for a code replaces an earlier one. -/
def ofRules (rules : List (Nat × RetryRule)) : RetryPolicy :=
  ⟨CodeTable.ofList (rules.map fun (c, r) => (c, .full r))⟩

/-- The rules for codes that may be retried; an empty list of these allows all. -/
def ofSettings (s : Settings) : RetryPolicy :=
  ofRules (s.retries.filter fun r => s.retryCodes.isEmpty || s.retryCodes.contains r.1)

def reset (p : RetryPolicy) : RetryPolicy :=
  ⟨p.budgets.map fun (c, b) => (c, .full b.rule)⟩

def budget? (p : RetryPolicy) (code : Nat) : Option Budget := p.budgets.lookup code

def update (code : Nat) (f : Budget → Budget) (p : RetryPolicy) : RetryPolicy :=
  ⟨p.budgets.map fun (c, b) => (c, if c = code then f b else b)⟩

/-- The delay before the next connection after a close with `code`, and the budgets thereafter; no delay
when there is no retry. -/
def retry (code : Nat) (p : RetryPolicy) : Option Nat × RetryPolicy :=
  if CloseCode.final.contains code then (Option.none, p)
  else
    match p.budget? code with
    | Option.none => (Option.none, p)
    | some b => if b.exhausted then (Option.none, p) else (some b.delay, p.update code Budget.spend)

end RetryPolicy

end ChatWire
