/-! Cancellation: a tree of tokens, in which cancelling one cancels all below it. -/

namespace ChatWire

/-- A token is named by the way to it from the root. -/
structure Token where
  path : List Nat
  deriving DecidableEq, Repr

/-- `fresh` has named no token yet; `cancelled` were cancelled themselves. -/
structure Cancellation where
  fresh : Nat
  cancelled : List Token
  deriving DecidableEq, Repr

namespace Cancellation

def start : Cancellation := ⟨0, []⟩

def cancel (t : Token) (c : Cancellation) : Cancellation := { c with cancelled := t :: c.cancelled }

def isCancelled (c : Cancellation) (t : Token) : Bool :=
  c.cancelled.any fun u => u.path.isPrefixOf t.path

/-- A new token below `t`. -/
def child (t : Token) (c : Cancellation) : Token × Cancellation :=
  (⟨t.path ++ [c.fresh]⟩, { c with fresh := c.fresh + 1 })

/-- A new token below no other. -/
def root (c : Cancellation) : Token × Cancellation := c.child ⟨[]⟩

theorem isCancelled_cancel (t u : Token) (c : Cancellation) :
    (c.cancel t).isCancelled u = (t.path.isPrefixOf u.path || c.isCancelled u) := by
  simp [isCancelled, cancel]

/-- Nothing is taken back. -/
theorem isCancelled_of_cancel {t u : Token} {c : Cancellation} (h : c.isCancelled u) :
    (c.cancel t).isCancelled u := by simp [isCancelled_cancel, h]

/-- A token below a cancelled one is cancelled. -/
theorem isCancelled_of_prefix {t u : Token} {c : Cancellation} (h : c.isCancelled t)
    (htu : t.path <+: u.path) : c.isCancelled u := by
  simp only [isCancelled, List.any_eq_true, List.isPrefixOf_iff_prefix] at h ⊢
  obtain ⟨v, hv, hvt⟩ := h
  exact ⟨v, hv, hvt.trans htu⟩

end Cancellation

end ChatWire
