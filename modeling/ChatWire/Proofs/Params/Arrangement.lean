import ChatWire.Proofs.Params.Signature
import ChatWire.Proofs.Text.Order

/-! Signatures whatever the order of the parameters. Pairs of one name keep their order, and otherwise the order in which
they are given makes no difference: there is one way to list them by the bytes of their names. -/

namespace ChatWire.Signature

/-- The pairs of `p` in another order, in which those of one name still follow each other as in `p`. -/
structure Shuffles (p q : List (String × String)) : Prop where
  perm : q.Perm p
  order : ∀ name, q.filter (fun a => a.1 = name) = p.filter fun a => a.1 = name

/-- The pairs of `p` listed by the bytes of their names, those of one name as in `p`. -/
structure Arranges (p r : List (String × String)) : Prop extends Shuffles p r where
  sorted : r.Pairwise fun a b => Text.toBytes a.1 ≤ Text.toBytes b.1

theorem Shuffles.trans {p q r : List (String × String)} (h : Shuffles p q) (h' : Shuffles q r) : Shuffles p r :=
  ⟨h'.perm.trans h.perm, fun name => (h'.order name).trans (h.order name)⟩

/-- Only the names that come up are to be looked at. -/
theorem Shuffles.of_mem {p q : List (String × String)} (h : q.Perm p)
    (hsame : ∀ b ∈ p, q.filter (fun a => a.1 = b.1) = p.filter fun a => a.1 = b.1) : Shuffles p q := by
  refine ⟨h, fun name => ?_⟩
  by_cases hname : ∃ b ∈ p, b.1 = name
  · obtain ⟨b, hb, rfl⟩ := hname
    exact hsame b hb
  · have hnone : ∀ a ∈ p, ¬ decide (a.1 = name) = true := fun a ha heq => hname ⟨a, ha, of_decide_eq_true heq⟩
    rw [List.filter_eq_nil_iff.2 hnone, List.filter_eq_nil_iff.2 fun a ha => hnone a (h.subset ha)]

theorem toBytes_le_iff (a b : String × String) : Text.toBytes a.1 ≤ Text.toBytes b.1 ↔ a.1 ≤ b.1 := by
  rw [← List.not_lt, Text.toBytes_lt_iff, String.not_lt]

/-- Sorting is stable: what has one name is in order as it is, and stays so. -/
theorem shuffles_arrange (p : List (String × String)) : Shuffles p (arrange p) := by
  refine ⟨arrange_perm p, fun name => ?_⟩
  have hone : (p.filter fun a => a.1 = name).Pairwise fun a b => before a b = true := by
    refine List.pairwise_of_forall_mem_list fun a ha b hb => ?_
    have hname : a.1 = b.1 :=
      (of_decide_eq_true (List.mem_filter.1 ha).2).trans (of_decide_eq_true (List.mem_filter.1 hb).2).symm
    exact (before_iff a b).2 (hname ▸ String.le_refl a.1)
  have hkept := (List.sublist_mergeSort before_trans before_total hone List.filter_sublist).filter fun a => a.1 = name
  rw [List.filter_filter] at hkept
  simp only [Bool.and_self] at hkept
  exact (hkept.eq_of_length ((arrange_perm p).filter _).length_eq.symm).symm

theorem arranges_arrange (p : List (String × String)) : Arranges p (arrange p) where
  toShuffles := shuffles_arrange p
  sorted := (pairwise_arrange p).imp fun {a b} h => (toBytes_le_iff a b).2 ((before_iff a b).1 h)

/-- Two sorted lists with the same pairs of each name are the same. -/
theorem eq_of_sorted {l m : List (String × String)} (hl : l.Pairwise fun a b => a.1 ≤ b.1)
    (hm : m.Pairwise fun a b => a.1 ≤ b.1)
    (h : ∀ name, l.filter (fun a => a.1 = name) = m.filter fun a => a.1 = name) : l = m := by
  induction l generalizing m with
  | nil =>
    cases m with
    | nil => rfl
    | cons b m => simpa using h b.1
  | cons a l ih =>
    cases m with
    | nil => simpa using h a.1
    | cons b m =>
      have hfirst {c d : String × String} {k n : List (String × String)} (hn : (d :: n).Pairwise fun a b => a.1 ≤ b.1)
          (heq : (c :: k).filter (fun a => a.1 = c.1) = (d :: n).filter fun a => a.1 = c.1) : d.1 ≤ c.1 := by
        have hmem : c ∈ (d :: n).filter fun a => a.1 = c.1 := by
          rw [← heq]
          simp
        rcases List.mem_cons.1 (List.mem_of_mem_filter hmem) with rfl | hc
        · exact String.le_refl _
        · exact List.rel_of_pairwise_cons hn hc
      have hname : a.1 = b.1 := String.le_antisymm (hfirst hl (h b.1).symm) (hfirst hm (h a.1))
      have hhead := h a.1
      rw [List.filter_cons_of_pos (by simp), List.filter_cons_of_pos (by simp [hname]), List.cons.injEq] at hhead
      obtain ⟨rfl, -⟩ := hhead
      refine congrArg (a :: ·) (ih hl.of_cons hm.of_cons fun name => ?_)
      have hrest := h name
      rw [List.filter_cons, List.filter_cons] at hrest
      split_ifs at hrest
      · exact (List.cons.inj hrest).2
      · exact hrest

theorem Arranges.eq_arrange {p r : List (String × String)} (h : Arranges p r) : r = arrange p := by
  have hsorted {r : List (String × String)} (h : Arranges p r) : r.Pairwise fun a b => a.1 ≤ b.1 :=
    h.sorted.imp fun {a b} => (toBytes_le_iff a b).1
  exact eq_of_sorted (hsorted h) (hsorted (arranges_arrange p)) fun name =>
    (h.order name).trans ((shuffles_arrange p).order name).symm

/-- The order that is left open makes no difference. -/
theorem arrange_of_shuffles {p q : List (String × String)} (h : Shuffles p q) : arrange q = arrange p :=
  Arranges.eq_arrange ⟨h.trans (shuffles_arrange q), (arranges_arrange q).sorted⟩

end ChatWire.Signature
