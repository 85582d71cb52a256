import ChatWire.Json.Value
import ChatWire.Retry.Settings
import Mathlib.Data.List.Induction
import Mathlib.Data.String.Basic
import Mathlib.Tactic.SplitIfs

/-! Lists of pairs in the order of their keys, each key once. The fields of an object are put in place one by one, and
so are the entries of a table of codes. Where no key comes twice, what comes of it is a matter of the pairs alone and
not of the order in which they are put. -/

namespace ChatWire

namespace Table

open scoped List

variable {κ α : Type}

/-- In a list without a key twice an entry is found by its key. -/
theorem lookup_of_mem [BEq κ] [LawfulBEq κ] {t : List (κ × α)} (h : (t.map Prod.fst).Nodup) {x : κ × α} (hx : x ∈ t) :
    t.lookup x.1 = some x.2 := by
  induction t with
  | nil => cases hx
  | cons y t ih =>
    obtain ⟨hy, ht⟩ := List.nodup_cons.1 h
    rcases List.mem_cons.1 hx with rfl | hx
    · exact List.lookup_cons_self
    · have hne : x.1 ≠ y.1 := fun heq => hy (heq ▸ List.mem_map_of_mem hx)
      rw [List.lookup_cons, beq_eq_false_iff_ne.2 hne]
      exact ih ht hx

variable [LinearOrder κ]

/-- Puts an entry at its place; an entry of that key gives way. -/
def insert (key : κ) (a : α) : List (κ × α) → List (κ × α)
  | [] => [(key, a)]
  | (k, b) :: r =>
    if key < k then (key, a) :: (k, b) :: r
    else if key = k then (key, a) :: r
    else (k, b) :: insert key a r

def ofList (entries : List (κ × α)) : List (κ × α) := entries.foldl (fun t x => insert x.1 x.2 t) []

/-- Whether the keys are in order, each once. -/
def InOrder (t : List (κ × α)) : Prop := t.Pairwise fun x y => x.1 < y.1

instance (t : List (κ × α)) : Decidable (InOrder t) := inferInstanceAs (Decidable (List.Pairwise _ _))

variable {t l : List (κ × α)} {key : κ} {a : α}

theorem InOrder.nodup_keys (h : InOrder t) : (t.map Prod.fst).Nodup :=
  List.pairwise_map.2 (h.imp fun hlt => ne_of_lt hlt)

theorem InOrder.eq_of_perm (ht : InOrder t) (hl : InOrder l) (h : t ~ l) : t = l :=
  h.eq_of_pairwise (fun _ _ _ _ hxy hyx => absurd hxy (lt_asymm hyx)) ht hl

/-! One entry. -/

theorem mem_of_mem_insert {x : κ × α} (h : x ∈ insert key a t) : x = (key, a) ∨ x ∈ t := by
  induction t with
  | nil => exact .inl (List.mem_singleton.1 h)
  | cons y t ih =>
    rw [insert] at h
    split_ifs at h with hlt heq
    · exact List.mem_cons.1 h
    · exact (List.mem_cons.1 h).imp_right (List.mem_cons_of_mem _)
    · rcases List.mem_cons.1 h with rfl | h
      · exact .inr (List.mem_cons_self ..)
      · exact (ih h).imp_right (List.mem_cons_of_mem _)

theorem InOrder.insert (h : InOrder t) : InOrder (insert key a t) := by
  induction t with
  | nil => exact List.pairwise_singleton ..
  | cons y t ih =>
    obtain ⟨hy, ht⟩ := List.pairwise_cons.1 h
    rw [Table.insert]
    split_ifs with hlt heq
    · exact List.pairwise_cons.2 ⟨List.forall_mem_cons.2 ⟨hlt, fun x hx => hlt.trans (hy x hx)⟩, h⟩
    · exact List.pairwise_cons.2 ⟨fun x hx => heq.trans_lt (hy x hx), ht⟩
    · refine List.pairwise_cons.2 ⟨fun x hx => ?_, ih ht⟩
      rcases mem_of_mem_insert hx with rfl | hx
      · exact lt_of_le_of_ne (not_lt.1 hlt) (Ne.symm heq)
      · exact hy x hx

/-- Under a new key nothing gives way. -/
theorem perm_insert (h : key ∉ t.map Prod.fst) : insert key a t ~ (key, a) :: t := by
  induction t with
  | nil => exact .refl _
  | cons y t ih =>
    obtain ⟨hne, ht⟩ := not_or.1 (fun hmem => h (List.mem_cons.2 hmem))
    rw [insert]
    split_ifs with hlt
    · exact .refl _
    · exact ((ih ht).cons y).trans (.swap ..)

/-! A list of entries. -/

theorem ofList_concat (l : List (κ × α)) (x : κ × α) : ofList (l ++ [x]) = insert x.1 x.2 (ofList l) :=
  List.foldl_append

theorem inOrder_ofList (l : List (κ × α)) : InOrder (ofList l) := by
  induction l using List.reverseRecOn with
  | nil => exact .nil
  | append_singleton l x ih =>
    rw [ofList_concat]
    exact ih.insert

theorem perm_ofList (h : (l.map Prod.fst).Nodup) : ofList l ~ l := by
  induction l using List.reverseRecOn with
  | nil => exact .refl _
  | append_singleton l x ih =>
    rw [List.map_append, List.nodup_append] at h
    obtain ⟨hl, -, hdisjoint⟩ := h
    have hx : x.1 ∉ (ofList l).map Prod.fst := fun hmem =>
      hdisjoint x.1 (((ih hl).map Prod.fst).mem_iff.1 hmem) x.1 (List.mem_singleton_self _) rfl
    rw [ofList_concat]
    calc insert x.1 x.2 (ofList l)
      _ ~ x :: ofList l := perm_insert hx
      _ ~ x :: l := (ih hl).cons x
      _ ~ l ++ [x] := (List.perm_append_singleton x l).symm

/-- A table comes of its entries in any order. -/
theorem ofList_eq_of_perm (ht : InOrder t) (h : l ~ t) : ofList l = t :=
  have hl : (l.map Prod.fst).Nodup := (h.map Prod.fst).nodup_iff.2 ht.nodup_keys
  (inOrder_ofList l).eq_of_perm ht ((perm_ofList hl).trans h)

end Table

/-! Both kinds of table. -/

theorem Fields.insert_eq (name : String) (value : Json) (fields : Fields) :
    fields.insert name value = Table.insert name value fields := by
  induction fields with
  | nil => rfl
  | cons f fields ih => rw [Fields.insert, Table.insert, ih]

theorem Fields.ofList_eq (fields : List (String × Json)) : ofList fields = Table.ofList fields := by
  simp only [ofList, Table.ofList, insert_eq]

theorem CodeTable.insert_eq {α : Type} (code : Nat) (a : α) (t : List (Nat × α)) :
    insert code a t = Table.insert code a t := by
  induction t with
  | nil => rfl
  | cons x t ih => rw [insert, Table.insert, ih]

theorem CodeTable.ofList_eq {α : Type} (entries : List (Nat × α)) : ofList entries = Table.ofList entries := by
  simp only [ofList, Table.ofList, insert_eq]

end ChatWire
