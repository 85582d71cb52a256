import ChatWire.Params.Key
import Mathlib.Tactic

/-! A signature does not depend on the order in which the parameters are given: arranging them by name
forgets it. -/

namespace ChatWire.Signature

/-- the order by name -/
def before (a b : String × String) : Bool := !decide (b.1 < a.1)

theorem before_iff (a b : String × String) : before a b ↔ a.1 ≤ b.1 := by
  rw [before, Bool.not_eq_true', decide_eq_false_iff_not, String.not_lt]

theorem before_trans (a b c : String × String) (h : before a b) (h' : before b c) : before a c :=
  (before_iff a c).2 (String.le_trans ((before_iff a b).1 h) ((before_iff b c).1 h'))

theorem before_total (a b : String × String) : (before a b || before b a) = true := by
  rw [Bool.or_eq_true, before_iff, before_iff]
  exact String.le_total _ _

theorem arrange_perm (pairs : List (String × String)) : (arrange pairs).Perm pairs := List.mergeSort_perm ..

theorem pairwise_arrange (pairs : List (String × String)) :
    (arrange pairs).Pairwise fun a b => before a b = true :=
  List.pairwise_mergeSort before_trans before_total pairs

/-- Where each name comes up once, the names alone fix the order. -/
theorem arrange_eq_of_perm {p q : List (String × String)} (h : q.Perm p) (hd : (p.map Prod.fst).Nodup) :
    arrange q = arrange p := by
  refine List.Perm.eq_of_pairwise ?_ (pairwise_arrange q) (pairwise_arrange p)
    ((arrange_perm q).trans (h.trans (arrange_perm p).symm))
  intro a b ha hb hab hba
  have hname : a.1 = b.1 := String.le_antisymm ((before_iff a b).1 hab) ((before_iff b a).1 hba)
  have ha' : a ∈ p := h.subset ((arrange_perm q).subset ha)
  exact List.inj_on_of_nodup_map hd ha' ((arrange_perm p).subset hb) hname

theorem sign_eq_of_perm (call : String) {p q : List (String × String)} (h : q.Perm p)
    (hd : (p.map Prod.fst).Nodup) : sign call q = sign call p := by
  rw [sign, sign, arrange_eq_of_perm h hd]

end ChatWire.Signature
