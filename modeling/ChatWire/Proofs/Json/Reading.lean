import ChatWire.Proofs.Json.Meaning

/-! Readers of written values. A value is read back as it was, and a reader takes the same from a value and
from its text, as long as the value does not nest too deep. -/

namespace ChatWire.Json

open Lexical (escapedBytes)

theorem toOption_bind {ε α β : Type} (x : Except ε α) (f : α → Except ε β) :
    (x >>= f).toOption = x.toOption.bind fun a => (f a).toOption := by cases x <;> rfl

theorem toOption_map {ε α β : Type} (f : α → β) (x : Except ε α) : (f <$> x).toOption = x.toOption.map f := by
  cases x <;> rfl

theorem toOption_mapError {ε δ α : Type} (f : ε → δ) (x : Except ε α) : (x.mapError f).toOption = x.toOption := by
  cases x <;> rfl

/-! A written value passed over, and read. -/

variable (spell : String → Bytes)

theorem skip_draftAs (j : Json) : (j.draftAs spell).skip = .ok () := (means_draftAs spell j).skip

theorem read_draftAs {j : Json} {o : Origin} (hj : j.isOrdered) (ho : o.Admits j.depth) :
    Draft.read o (j.draftAs spell) = .ok j := by
  rw [(means_draftAs spell j).read ho, settled_of_isOrdered hj]

/-! Readers that do not care where a value comes from. -/

namespace Reading

variable {α σ : Type}

/-- A reader takes the same from a written value wherever it stands, or fails everywhere. -/
def Steady (r : Reading α) : Prop :=
  ∀ ⦃j : Json⦄ ⦃o i : Origin⦄ (s t : String → Bytes), j.isOrdered → o.Admits j.depth → i.Admits j.depth →
    (r o (j.draftAs s)).toOption = (r i (j.draftAs t)).toOption

theorem steady_value : Steady value := by
  intro j o i s t hj ho hi
  rw [value, read_draftAs s hj ho, read_draftAs t hj hi]

theorem Steady.map {r : Reading α} (hr : Steady r) (f : α → σ) : Steady (map f r) := by
  intro j o i s t hj ho hi
  rw [Reading.map, Reading.map, toOption_map, toOption_map, hr s t hj ho hi]

theorem Steady.items {r : Reading α} (hr : Steady r) (s t : String → Bytes) {o i : Origin} {l : List Json}
    (hl : itemsOrdered l) (ho : o.Admits (itemsDepth l)) (hi : i.Admits (itemsDepth l)) :
    (items r o (itemsAs s l)).toOption = (items r i (itemsAs t l)).toOption := by
  induction l with
  | nil => rfl
  | cons j l ih =>
    simp only [itemsOrdered, Bool.and_eq_true] at hl
    have hhead := hr s t hl.1 (ho.mono (Nat.le_max_left ..)) (hi.mono (Nat.le_max_left ..))
    have htail := ih hl.2 (ho.mono (Nat.le_max_right ..)) (hi.mono (Nat.le_max_right ..))
    simp only [itemsAs, Reading.items, toOption_bind, hhead, htail]

theorem Steady.list {r : Reading α} (hr : Steady r) : Steady (list r) := by
  intro j o i s t hj ho hi
  cases j with
  | arr l =>
    obtain ⟨o', ho', hadm⟩ := ho.enter
    obtain ⟨i', hi', hadm'⟩ := hi.enter
    simp only [draftAs, Reading.list, ho', hi']
    exact hr.items s t hj hadm hadm'
  | _ => rfl

section Records

variable {slots : List (Slot σ)}

theorem fromMembers_cons (slots : List (Slot σ)) (o : Origin) (s : String → Bytes) (k : String) (j : Json)
    (l : List (String × Json)) (seen : List String) (start : σ) :
    fromMembers slots o (fieldsAs s ((k, j) :: l)) seen start =
      match slots.find? fun f => f.name == k with
      | none => fromMembers slots o (fieldsAs s l) seen start
      | some f =>
        if seen.contains k then .error .mismatch
        else f.put o (j.draftAs s) >>= fun set => fromMembers slots o (fieldsAs s l) (k :: seen) (set start) := by
  simp only [fieldsAs, fromMembers, skip_draftAs, bind, Except.bind]
  cases slots.find? fun f => f.name == k with
  | none => rfl
  | some f =>
    simp only
    split_ifs <;> rfl

/-- A field that is known and comes for the first time is taken. -/
theorem fromMembers_field {o : Origin} {spell : String → Bytes} {k : String} {j : Json} {l : Fields}
    {seen : List String} {start : σ} {r : Reading α} {put : α → σ → σ} {a : α}
    (hf : (slots.find? fun f => f.name == k) = some (field k r put)) (hseen : seen.contains k = false)
    (hr : r o (j.draftAs spell) = .ok a) :
    fromMembers slots o (fieldsAs spell ((k, j) :: l)) seen start =
      fromMembers slots o (fieldsAs spell l) (k :: seen) (put a start) := by
  rw [fieldsAs, fromMembers_known hf rfl hseen, hr]
  rfl

theorem fromMembers_steady (h : ∀ f ∈ slots, Steady f.put) (s t : String → Bytes) {o i : Origin}
    {l : List (String × Json)} (hl : fieldsOrdered l) (ho : o.Admits (fieldsDepth l))
    (hi : i.Admits (fieldsDepth l)) (seen : List String) (start : σ) :
    (fromMembers slots o (fieldsAs s l) seen start).toOption =
      (fromMembers slots i (fieldsAs t l) seen start).toOption := by
  induction l generalizing seen start with
  | nil => rfl
  | cons f l ih =>
    obtain ⟨k, j⟩ := f
    simp only [fieldsOrdered, Bool.and_eq_true] at hl
    have hrest := ih hl.2 (ho.mono (Nat.le_max_right ..)) (hi.mono (Nat.le_max_right ..))
    rw [fromMembers_cons, fromMembers_cons]
    cases hslot : slots.find? fun f => f.name == k with
    | none => exact hrest seen start
    | some f =>
      have hput := h f (List.mem_of_find?_eq_some hslot) s t hl.1 (ho.mono (Nat.le_max_left ..))
        (hi.mono (Nat.le_max_left ..))
      simp only
      split_ifs
      · rfl
      · simp only [toOption_bind, hput, hrest]

/-- Items beyond the last field are refused, with a fault that depends on where they stand. -/
theorem fromItems_steady (h : ∀ f ∈ slots, Steady f.put) (s t : String → Bytes) {o i : Origin}
    {l : List Json} (hl : itemsOrdered l) (ho : o.Admits (itemsDepth l)) (hi : i.Admits (itemsDepth l))
    (start : σ) :
    (fromItems o slots (itemsAs s l) start).toOption = (fromItems i slots (itemsAs t l) start).toOption := by
  induction slots generalizing l start with
  | nil => cases l <;> rfl
  | cons f slots ih =>
    cases l with
    | nil => rfl
    | cons j l =>
      simp only [itemsOrdered, Bool.and_eq_true] at hl
      have hput := h f (List.mem_cons_self ..) s t hl.1 (ho.mono (Nat.le_max_left ..))
        (hi.mono (Nat.le_max_left ..))
      have hrest := ih (fun g hg => h g (List.mem_cons_of_mem _ hg)) hl.2 (ho.mono (Nat.le_max_right ..))
        (hi.mono (Nat.le_max_right ..))
      simp only [itemsAs, fromItems, toOption_bind, hput, hrest]

theorem record_obj (n : Nat) (start : σ) (slots : List (Slot σ)) (l : Fields) :
    record start slots (.text (n + 1)) ((Json.obj l).draftAs spell) =
      fromMembers slots (.text n) (fieldsAs spell l) [] start := by
  rw [draftAs]
  rfl

theorem Steady.record (start : σ) (h : ∀ f ∈ slots, Steady f.put) : Steady (record start slots) := by
  intro j o i s t hj ho hi
  cases j with
  | arr l =>
    obtain ⟨o', ho', hadm⟩ := ho.enter
    obtain ⟨i', hi', hadm'⟩ := hi.enter
    simp only [draftAs, Reading.record, ho', hi']
    exact fromItems_steady h s t hj hadm hadm' start
  | obj l =>
    obtain ⟨o', ho', hadm⟩ := ho.enter
    obtain ⟨i', hi', hadm'⟩ := hi.enter
    simp only [isOrdered, Bool.and_eq_true] at hj
    simp only [draftAs, Reading.record, ho', hi']
    exact fromMembers_steady h s t hj.2 hadm hadm' [] start
  | _ => rfl

end Records

/-! Texts. -/

/-- Reading the text of a value is reading its tree. -/
theorem parse_render (r : Reading α) {j : Json} (hj : j.isIntegral) :
    r.parse (Text.toBytes j.render) = r (.text maxLevels) (j.draftAs escapedBytes) := by
  rw [parse, Draft.ofText_render hj]
  exact bind_pure _

theorem parse_value_render {j : Json} (hi : j.isIntegral) (ho : j.isOrdered) (hd : j.depth ≤ maxLevels) :
    value.parse (Text.toBytes j.render) = .ok j := by
  rw [parse_render _ hi]
  exact read_draftAs escapedBytes ho hd

theorem Steady.parse_render {r : Reading α} (hr : Steady r) {j : Json} (hi : j.isIntegral) (ho : j.isOrdered)
    (hd : j.depth ≤ maxLevels) : (r.parse (Text.toBytes j.render)).toOption = (r.ofJson j).toOption := by
  rw [Reading.parse_render r hi, ofJson, toDraft_eq_draftAs]
  exact hr escapedBytes Text.toBytes ho hd trivial

end Reading

end ChatWire.Json
