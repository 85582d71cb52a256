import ChatWire.Json.Reading
import ChatWire.Proofs.Json.Draft

/-! What a tree means: the value that it stands for, when nothing is wrong with it. The readers of values, texts and
integers go by the meaning, so that it does not matter how a value is spelled or where it comes from. -/

namespace ChatWire

theorem Fields.insert_end {fields : Fields} {name : String} (h : ∀ f ∈ fields, f.1 < name) (j : Json) :
    fields.insert name j = fields ++ [(name, j)] := by
  induction fields with
  | nil => rfl
  | cons f r ih =>
    have hf := h f (List.mem_cons_self ..)
    have hne : name ≠ f.1 := by
      rintro rfl
      exact String.lt_irrefl _ hf
    rw [Fields.insert, if_neg (String.lt_asymm hf), if_neg hne, ih fun g hg => h g (List.mem_cons_of_mem _ hg)]
    rfl

namespace Json

mutual

/-- Whether the names in every object of a value are in order, each once. -/
def isOrdered : Json → Bool
  | .arr items => itemsOrdered items
  | .obj fields => decide (fields.Pairwise fun f g => f.1 < g.1) && fieldsOrdered fields
  | _ => true

def itemsOrdered : List Json → Bool
  | [] => true
  | j :: r => j.isOrdered && itemsOrdered r

def fieldsOrdered : List (String × Json) → Bool
  | [] => true
  | (_, j) :: r => j.isOrdered && fieldsOrdered r

end

namespace Origin

/-- Whether values of so many levels can be read. -/
def Admits : Origin → Nat → Prop
  | text n, d => d ≤ n
  | value, _ => True

theorem Admits.mono {o : Origin} {m n : Nat} (h : o.Admits n) (hmn : m ≤ n) : o.Admits m := by
  cases o with
  | text k => exact Nat.le_trans hmn h
  | value => trivial

theorem Admits.enter {o : Origin} {n : Nat} (h : o.Admits (n + 1)) : ∃ i, o.enter = .ok i ∧ i.Admits n := by
  cases o with
  | value => exact ⟨value, rfl, trivial⟩
  | text k =>
    cases k with
    | zero => exact absurd h (Nat.not_succ_le_zero n)
    | succ k => exact ⟨text k, rfl, Nat.le_of_succ_le_succ h⟩

end Origin

mutual

/-- `d.Means j`: nothing is wrong with the tree `d`, and it stands for the value `j`. The fields of an object keep
their order, and a name may come again. -/
inductive Draft.Means : Draft → Json → Prop
  | null : Draft.Means .null .null
  | bool (b : Bool) : Draft.Means (.bool b) (.bool b)
  | number (n : Number) : Draft.Means (.number (.ok n)) (.num n)
  | string (s : String) : Draft.Means (.string (.ok s)) (.str s)
  | array {items : Items} {l : List Json} : items.Mean l → Draft.Means (.array items) (.arr l)
  | object {members : Members} {l : Fields} : members.Mean l → Draft.Means (.object members) (.obj l)

inductive Items.Mean : Items → List Json → Prop
  | closed : Items.Mean .closed []
  | cons {d : Draft} {rest : Items} {j : Json} {l : List Json} :
      d.Means j → rest.Mean l → Items.Mean (.cons d rest) (j :: l)

/-- A name may be spelled in any way. -/
inductive Members.Mean : Members → Fields → Prop
  | closed : Members.Mean .closed []
  | cons {raw : Bytes} {closed : Bool} {k : String} {d : Draft} {rest : Members} {j : Json} {l : Fields} :
      d.Means j → rest.Mean l → Members.Mean (.cons ⟨raw, closed, .ok k, .ok ()⟩ d rest) ((k, j) :: l)

end

mutual

theorem means_draftAs (spell : String → Bytes) : ∀ j : Json, (j.draftAs spell).Means j
  | .null => .null
  | .bool b => .bool b
  | .num n => .number n
  | .str s => .string s
  | .arr items => .array (mean_itemsAs spell items)
  | .obj fields => .object (mean_fieldsAs spell fields)

theorem mean_itemsAs (spell : String → Bytes) : ∀ l : List Json, (itemsAs spell l).Mean l
  | [] => .closed
  | j :: r => .cons (means_draftAs spell j) (mean_itemsAs spell r)

theorem mean_fieldsAs (spell : String → Bytes) : ∀ l : List (String × Json), (fieldsAs spell l).Mean l
  | [] => .closed
  | (_, j) :: r => .cons (means_draftAs spell j) (mean_fieldsAs spell r)

end

mutual

theorem Draft.Means.skip : ∀ {d : Draft} {j : Json}, d.Means j → d.skip = .ok ()
  | _, _, .null | _, _, .bool _ | _, _, .number _ | _, _, .string _ => rfl
  | _, _, .array h => by rw [Draft.skip, h.skip]
  | _, _, .object h => by rw [Draft.skip, h.skip]

theorem Items.Mean.skip : ∀ {items : Items} {l : List Json}, items.Mean l → items.skip = .ok ()
  | _, _, .closed => rfl
  | _, _, .cons hd hr => by
    rw [Items.skip, hd.skip, hr.skip]
    rfl

theorem Members.Mean.skip : ∀ {members : Members} {l : Fields}, members.Mean l → members.skip = .ok ()
  | _, _, .closed => rfl
  | _, _, .cons hd hr => by
    rw [Members.skip, hd.skip, hr.skip]
    rfl

end

/-! A value read. -/

mutual

/-- The value with the fields of every object in order; of two fields of one name the later one counts. -/
def settled : Json → Json
  | .arr items => .arr (itemsSettled items)
  | .obj fields => .obj (fieldsSettled [] fields)
  | j => j

def itemsSettled : List Json → List Json
  | [] => []
  | j :: r => j.settled :: itemsSettled r

/-- the fields put among those of `before` -/
def fieldsSettled (before : Fields) : List (String × Json) → Fields
  | [] => before
  | (k, j) :: r => fieldsSettled (before.insert k j.settled) r

end

mutual

theorem settled_of_isOrdered : ∀ {j : Json}, j.isOrdered → j.settled = j
  | .null, _ | .bool _, _ | .num _, _ | .str _, _ => rfl
  | .arr _, h => by rw [settled, itemsSettled_of_ordered h]
  | .obj fields, h => by
    simp only [isOrdered, Bool.and_eq_true, decide_eq_true_eq] at h
    rw [settled, fieldsSettled_of_ordered h.2 [] (by simpa using h.1), List.nil_append]

theorem itemsSettled_of_ordered : ∀ {l : List Json}, itemsOrdered l → itemsSettled l = l
  | [], _ => rfl
  | j :: r, h => by
    simp only [itemsOrdered, Bool.and_eq_true] at h
    rw [itemsSettled, settled_of_isOrdered h.1, itemsSettled_of_ordered h.2]

/-- Each field is put behind those before it. -/
theorem fieldsSettled_of_ordered : ∀ {l : List (String × Json)}, fieldsOrdered l → ∀ before : Fields,
    (before ++ l).Pairwise (fun f g => f.1 < g.1) → fieldsSettled before l = before ++ l
  | [], _, before, _ => (List.append_nil before).symm
  | (k, j) :: r, h, before, hp => by
    simp only [fieldsOrdered, Bool.and_eq_true] at h
    have hlt : ∀ f ∈ before, f.1 < k := fun f hf =>
      (List.pairwise_append.1 hp).2.2 f hf (k, j) (List.mem_cons_self ..)
    rw [List.append_cons] at hp ⊢
    rw [fieldsSettled, settled_of_isOrdered h.1, Fields.insert_end hlt, fieldsSettled_of_ordered h.2 _ hp]

end

mutual

theorem Draft.Means.read : ∀ {d : Draft} {j : Json}, d.Means j → ∀ {o : Origin}, o.Admits j.depth →
    d.read o = .ok j.settled
  | _, _, .null, _, _ | _, _, .bool _, _, _ | _, _, .number _, _, _ | _, _, .string _, _, _ => rfl
  | _, _, .array h, o, ho => by
    obtain ⟨i, hi, hadm⟩ := ho.enter
    rw [Draft.read, hi]
    exact congrArg (fun x => x >>= fun l => pure (Json.arr l)) (h.read hadm)
  | _, _, .object h, o, ho => by
    obtain ⟨i, hi, hadm⟩ := ho.enter
    rw [Draft.read, hi]
    exact congrArg (fun x => x >>= fun l => pure (Json.obj l)) (h.read hadm [])

theorem Items.Mean.read : ∀ {items : Items} {l : List Json}, items.Mean l → ∀ {o : Origin},
    o.Admits (itemsDepth l) → items.read o = .ok (itemsSettled l)
  | _, _, .closed, _, _ => rfl
  | _, _, .cons hd hr, o, ho => by
    rw [Items.read, hd.read (ho.mono (Nat.le_max_left ..)), hr.read (ho.mono (Nat.le_max_right ..))]
    rfl

theorem Members.Mean.read : ∀ {members : Members} {l : Fields}, members.Mean l → ∀ {o : Origin},
    o.Admits (fieldsDepth l) → ∀ before : Fields, members.read o before = .ok (fieldsSettled before l)
  | _, _, .closed, _, _, _ => rfl
  | _, _, .cons hd hr, o, ho, before => by
    rw [Members.read, hd.read (ho.mono (Nat.le_max_left ..))]
    exact hr.read (ho.mono (Nat.le_max_right ..)) _

end

/-! Readers that go by the meaning. -/

namespace Reading

variable {α : Type} {d : Draft} {j : Json}

theorem string_of_means (h : d.Means j) (o : Origin) : string o d = string.ofJson j := by cases h <;> rfl

theorem integer_of_means (low high : Int) (h : d.Means j) (o : Origin) :
    integer low high o d = (integer low high).ofJson j := by
  cases h with
  | number n => cases n <;> rfl
  | _ => rfl

theorem integer_number {low high n : Int} (h : low ≤ n ∧ n ≤ high) (o : Origin) :
    integer low high o (.number (.ok (.int n))) = .ok n := if_pos h

theorem optional_of_means {r : Reading α} (h : d.Means j) {o : Origin} (hr : r o d = r.ofJson j) :
    optional r o d = (optional r).ofJson j := by
  cases h with
  | null => rfl
  | _ => exact congrArg (some <$> ·) hr

section Records

variable {σ : Type} {slots : List (Slot σ)} {k : String} {seen : List String}

theorem fromMembers_unknown (h : d.Means j) (hf : (slots.find? fun f => f.name == k) = none) (o : Origin) (raw : Bytes)
    (closed : Bool) (rest : Members) (start : σ) :
    fromMembers slots o (.cons ⟨raw, closed, .ok k, .ok ()⟩ d rest) seen start =
      fromMembers slots o rest seen start := by
  simp only [fromMembers, h.skip, hf, bind, Except.bind]

theorem fromMembers_known {f : Slot σ} {r : Reading α} {set : α → σ → σ}
    (hf : (slots.find? fun f => f.name == k) = some f) (hput : f.put = map set r) (hseen : seen.contains k = false)
    (o : Origin) (raw : Bytes) (closed : Bool) (d : Draft) (rest : Members) (start : σ) :
    fromMembers slots o (.cons ⟨raw, closed, .ok k, .ok ()⟩ d rest) seen start =
      r o d >>= fun a => fromMembers slots o rest (k :: seen) (set a start) := by
  have hbind : r o d >>= (fun a => fromMembers slots o rest (k :: seen) (set a start)) =
      f.put o d >>= fun set => fromMembers slots o rest (k :: seen) (set start) := by
    rw [hput, map, bind_map_left]
  rw [hbind]
  simp only [fromMembers, hf, hseen, bind, Except.bind]
  rfl

end Records

end Reading

/-! Texts. -/

/-- `text` is a JSON text of the value `j`, spelled and spaced in any way. -/
def Says (text : Bytes) (j : Json) : Prop :=
  ∃ d rest, Draft.ofText text = (d, rest) ∧ d.Means j ∧ (Lexical.skipBlanks rest).isEmpty

theorem says_render {j : Json} (hj : j.isIntegral) : Says (Text.toBytes j.render) j :=
  ⟨_, [], Draft.ofText_render hj, means_draftAs _ j, rfl⟩

/-- A reader of a text reads a tree of what the text says. -/
theorem Reading.exists_parse {α : Type} (r : Reading α) {text : Bytes} {j : Json} (h : Says text j) :
    ∃ d, d.Means j ∧ r.parse text = r (.text maxLevels) d := by
  obtain ⟨d, rest, htext, hd, hrest⟩ := h
  refine ⟨d, hd, ?_⟩
  rw [parse, htext]
  simp only [hrest, if_true]
  exact bind_pure _

end Json

end ChatWire
