import ChatWire.Proofs.Json.Reading

/-! What is written for a reader. A reader takes a thing from a value wherever the value stands, in a text or not, and
so does a reader that is made of such readers. A record takes each field that is written for it under its own name. -/

namespace ChatWire.Json

open Lexical (digitBytes escapedBytes)
open Text (utf8)

/-- Whether a number that stands as a name is spelled by its digits. -/
def Plain (spell : String → Bytes) : Prop := ∀ n : Nat, spell (toString n) = digitBytes n

theorem plain_toBytes : Plain Text.toBytes := by
  intro n
  rw [Text.toBytes_eq_utf8, Nat.toString_eq_repr, Nat.toList_repr]
  rfl

/-- There is nothing to be escaped in digits. -/
theorem plain_escapedBytes : Plain escapedBytes := by
  intro n
  have hdigit : ∀ c ∈ Nat.toDigits 10 n, escapeChar c = [c] := by
    intro c hc
    obtain ⟨-, hlow, -⟩ := Lexical.toNat_digit (Nat.isDigit_of_mem_toDigits (by decide) (by decide) hc)
    have hne (d : Char) (hd : d.toNat < 48 ∨ 57 < d.toNat) : c ≠ d := by
      rintro rfl
      obtain ⟨-, -, hhigh⟩ := Lexical.toNat_digit (Nat.isDigit_of_mem_toDigits (by decide) (by decide) hc)
      omega
    rw [escapeChar, if_neg (hne _ (by decide)), if_neg (hne _ (by decide)), if_neg (hne _ (by decide)),
      if_neg (hne _ (by decide)), if_neg (hne _ (by decide)), if_neg (hne _ (by decide)), if_neg (hne _ (by decide)),
      if_neg (by omega)]
  rw [escapedBytes, Nat.toString_eq_repr, Nat.toList_repr, List.flatMap_congr hdigit, List.flatMap_singleton']
  rfl

/-! Integers within 64 bits. -/

theorem isIntegral_nat {n : Nat} (h : n < UInt64.size) : (nat n).isIntegral := by
  have hlow : leastInt64 ≤ (n : Int) := le_trans (by decide) (Int.natCast_nonneg n)
  have hhigh : (n : Int) < UInt64.size := Int.ofNat_lt.2 h
  simp only [nat, isIntegral, hlow, hhigh, decide_true, Bool.and_self]

theorem itemsIntegral_iff {l : List Json} : itemsIntegral l ↔ ∀ j ∈ l, j.isIntegral := by
  induction l with
  | nil => simp [itemsIntegral]
  | cons j l ih => rw [itemsIntegral, Bool.and_eq_true, ih, List.forall_mem_cons]

theorem fieldsIntegral_iff {l : List (String × Json)} : fieldsIntegral l ↔ ∀ f ∈ l, f.2.isIntegral := by
  induction l with
  | nil => simp [fieldsIntegral]
  | cons f l ih => rw [fieldsIntegral, Bool.and_eq_true, ih, List.forall_mem_cons]

namespace Reading

variable {α σ : Type} {r : Reading α} {levels : Nat} {j : Json} {a : α} {f : α → Json}

/-- `r.Takes levels j a`: wherever `j` stands, `r` takes `a` from it, if only it may go down so many levels. -/
def Takes (r : Reading α) (levels : Nat) (j : Json) (a : α) : Prop :=
  ∀ ⦃o : Origin⦄ ⦃spell : String → Bytes⦄, o.Admits levels → Plain spell → r o (j.draftAs spell) = .ok a

theorem natural_number {n high : Nat} (h : n ≤ high) (o : Origin) :
    natural high o (.number (.ok (.int n))) = .ok n := by
  have hread : integer 0 high o (.number (.ok (.int n))) = .ok (n : Int) := integer_number (by omega) o
  exact congrArg (Int.toNat <$> ·) hread

namespace Takes

theorem ofJson (h : r.Takes levels j a) : r.ofJson j = .ok a := by
  rw [Reading.ofJson, toDraft_eq_draftAs]
  exact h trivial plain_toBytes

theorem parse_render (h : r.Takes levels j a) (hlevels : levels ≤ maxLevels) (hj : j.isIntegral) :
    r.parse (Text.toBytes j.render) = .ok a := by
  rw [Reading.parse_render r hj]
  exact h hlevels plain_escapedBytes

theorem mono {more : Nat} (h : r.Takes levels j a) (hle : levels ≤ more) : r.Takes more j a :=
  fun _ _ ho hspell => h (ho.mono hle) hspell

theorem map {β : Type} (h : r.Takes levels j a) (g : α → β) : (map g r).Takes levels j (g a) := by
  intro o spell ho hspell
  rw [Reading.map, h ho hspell]
  rfl

/-! Readers of a single value. -/

theorem string (s : String) : string.Takes 0 (.str s) s := fun _ _ _ _ => rfl

theorem optional_string (s : String) : (optional Reading.string).Takes 0 (.str s) (some s) := fun _ _ _ _ => rfl

theorem bool (b : Bool) : bool.Takes 0 (.bool b) b := fun _ _ _ _ => rfl

theorem natural {n high : Nat} (h : n ≤ high) : (natural high).Takes 0 (.nat n) n :=
  fun o _ _ _ => natural_number h o

theorem value (h : j.isOrdered) : value.Takes j.depth j j := fun _ spell ho _ => read_draftAs spell h ho

/-! Lists and tables. -/

theorem items {l : List α} (h : ∀ a ∈ l, r.Takes levels (f a) a) {o : Origin} (ho : o.Admits levels)
    {spell : String → Bytes} (hspell : Plain spell) : items r o (itemsAs spell (l.map f)) = .ok l := by
  induction l with
  | nil => rfl
  | cons a l ih =>
    rw [List.map_cons, itemsAs, Reading.items, h a (List.mem_cons_self ..) ho hspell,
      ih fun b hb => h b (List.mem_cons_of_mem _ hb)]
    rfl

theorem list {l : List α} (h : ∀ a ∈ l, r.Takes levels (f a) a) : (list r).Takes (levels + 1) (.arr (l.map f)) l := by
  intro o spell ho hspell
  obtain ⟨i, hi, hadm⟩ := ho.enter
  rw [draftAs, Reading.list, hi]
  exact items h hadm hspell

/-- In a text the quote that ends a name also ends its digits. -/
theorem codeKey {code : Nat} (h : code < UInt16.size) (name : String) (o : Origin) :
    codeKey o ⟨digitBytes code, true, .ok name, .ok ()⟩ = .ok code := by
  obtain ⟨b, t, hb⟩ := List.exists_cons_of_ne_nil (Lexical.digitBytes_ne_nil code)
  have hfirst : b = 45 ∨ Lexical.isDigit b :=
    .inr (Lexical.isDigit_of_mem_digitBytes b (by rw [hb]; exact List.mem_cons_self ..))
  have hbytes : utf8 (Number.int code).toChars = digitBytes code := by
    rw [Lexical.toChars_int, if_neg (by omega)]
    rfl
  have hsize : (code : Int) < UInt64.size := Int.ofNat_lt.2 (h.trans (by decide))
  have hnumeral (rest : Bytes) (hrest : Lexical.Stops rest) :
      ∃ m, Lexical.numeral (digitBytes code ++ rest) = .ok (m, rest) ∧ m.number = .ok (.int code) :=
    hbytes ▸ Lexical.numeral_int (le_trans (by decide) (Int.natCast_nonneg code)) hsize hrest
  have hread (o : Origin) : nat16 o (.number (.ok (.int code))) = .ok code :=
    natural_number (Nat.le_pred_of_lt h) o
  cases o with
  | text k =>
    obtain ⟨m, hm, hnumber⟩ := hnumeral [34] (by rintro b ⟨⟩; decide)
    rw [hb, List.cons_append] at hm
    rw [Reading.codeKey, hb]
    simp only [if_true, List.cons_append, hfirst, not_true_eq_false, if_false, hm, bind, Except.bind, hnumber, hread]
    rfl
  | value =>
    obtain ⟨m, hm, hnumber⟩ := hnumeral [] Lexical.ends_nil.stops
    rw [hb, List.append_nil] at hm
    rw [Reading.codeKey, hb]
    simp only [hfirst, not_true_eq_false, if_false, hm, bind, Except.bind, hnumber, hread]
    rfl

/-- Names that are codes, in any order. -/
theorem codes {l : List (Nat × α)} (hcode : ∀ x ∈ l, x.1 < UInt16.size) (h : ∀ x ∈ l, r.Takes levels (f x.2) x.2)
    {o : Origin} (ho : o.Admits levels) {spell : String → Bytes} (hspell : Plain spell) :
    codes r o (fieldsAs spell (l.map fun x => (toString x.1, f x.2))) = .ok l := by
  induction l with
  | nil => rfl
  | cons x l ih =>
    obtain ⟨hx, hl⟩ := List.forall_mem_cons.1 hcode
    obtain ⟨hfx, hfl⟩ := List.forall_mem_cons.1 h
    rw [List.map_cons, fieldsAs, Reading.codes, hspell x.1, codeKey hx, hfx ho hspell, ih hl hfl]
    rfl

theorem codeTable {l : List (Nat × α)} (hcode : ∀ x ∈ l, x.1 < UInt16.size)
    (h : ∀ x ∈ l, r.Takes levels (f x.2) x.2) :
    (codeTable r).Takes (levels + 1) (.obj (l.map fun x => (toString x.1, f x.2))) l := by
  intro o spell ho hspell
  obtain ⟨i, hi, hadm⟩ := ho.enter
  rw [draftAs, Reading.codeTable, hi]
  exact codes hcode h hadm hspell

end Takes

/-! Records. -/

/-- A field as it is written, and what is set by it. -/
structure Entry (σ : Type) where
  name : String
  value : Json
  set : σ → σ

namespace Entry

variable {slots : List (Slot σ)} {entries : List (Entry σ)}

/-- the field itself -/
def field (p : Entry σ) : String × Json := (p.name, p.value)

/-- Whether there is a slot for the field, whose reader takes from it what it sets. -/
def Fits (slots : List (Slot σ)) (levels : Nat) (p : Entry σ) : Prop :=
  ∃ f, (slots.find? fun f => f.name == p.name) = some f ∧ f.put.Takes levels p.value p.set

/-- The slots that may not be left out. -/
def Complete (slots : List (Slot σ)) (names : List String) : Prop :=
  ∀ f ∈ slots, f.need = .always → f.name ∈ names

theorem fromMembers (hfits : ∀ p ∈ entries, p.Fits slots levels) (hnodup : (entries.map name).Nodup)
    {seen : List String} (hseen : ∀ p ∈ entries, p.name ∉ seen)
    (hcomplete : Complete slots (seen ++ entries.map name)) {o : Origin} (ho : o.Admits levels)
    {spell : String → Bytes} (hspell : Plain spell) (start : σ) :
    fromMembers slots o (fieldsAs spell (entries.map field)) seen start =
      .ok (entries.foldl (fun s p => p.set s) start) := by
  induction entries generalizing seen start with
  | nil =>
    have hclosed : ¬ (slots.any fun f => f.need == .always && !seen.contains f.name) := by
      simp only [List.any_eq_true, Bool.and_eq_true, beq_iff_eq, Bool.not_eq_true', not_exists, not_and,
        Bool.not_eq_false]
      intro f hf hneed
      have hmem := hcomplete f hf hneed
      rw [List.map_nil, List.append_nil] at hmem
      exact List.contains_iff_mem.2 hmem
    rw [List.map_nil, fieldsAs, Reading.fromMembers, if_neg hclosed, List.foldl_nil]
  | cons p entries ih =>
    obtain ⟨⟨f, hslot, hput⟩, hfits⟩ := List.forall_mem_cons.1 hfits
    obtain ⟨hp, hnodup⟩ := List.nodup_cons.1 hnodup
    obtain ⟨hpseen, hseen⟩ := List.forall_mem_cons.1 hseen
    have hnew : ∀ q ∈ entries, q.name ∉ p.name :: seen := by
      intro q hq hmem
      rcases List.mem_cons.1 hmem with heq | hmem
      · exact hp (heq ▸ List.mem_map_of_mem hq)
      · exact hseen q hq hmem
    have hrest : Complete slots (p.name :: seen ++ entries.map name) := by
      intro f hf hneed
      have hmem := hcomplete f hf hneed
      simp only [List.map_cons, List.mem_append, List.mem_cons] at hmem ⊢
      tauto
    rw [List.map_cons, field, fromMembers_cons, hslot]
    simp only [List.contains_eq_mem, hpseen, decide_false, Bool.false_eq_true, if_false, hput ho hspell]
    exact ih hfits hnodup hnew hrest _

end Entry

/-- A record is read from entries that fit, in any order, if none is there twice and none is missing. -/
theorem Takes.record {slots : List (Slot σ)} (entries : List (Entry σ)) (hfits : ∀ p ∈ entries, p.Fits slots levels)
    (hnodup : (entries.map Entry.name).Nodup) (hcomplete : Entry.Complete slots (entries.map Entry.name)) (start : σ) :
    (record start slots).Takes (levels + 1) (.obj (entries.map Entry.field))
      (entries.foldl (fun s p => p.set s) start) := by
  intro o spell ho hspell
  obtain ⟨i, hi, hadm⟩ := ho.enter
  rw [draftAs, Reading.record, hi]
  exact Entry.fromMembers hfits hnodup (by simp) hcomplete hadm hspell start

/-- A record does not tell apart two values that the reader of their field does not tell apart. -/
theorem fromMembers_congr {slots : List (Slot σ)} {o : Origin} {spell : String → Bytes} {name : String} {i j : Json}
    (h : ∀ f ∈ slots, f.name = name → f.put o (i.draftAs spell) = f.put o (j.draftAs spell))
    (before after : Fields) (seen : List String) (start : σ) :
    fromMembers slots o (fieldsAs spell (before ++ (name, i) :: after)) seen start =
      fromMembers slots o (fieldsAs spell (before ++ (name, j) :: after)) seen start := by
  induction before generalizing seen start with
  | nil =>
    rw [List.nil_append, List.nil_append, fromMembers_cons, fromMembers_cons]
    cases hslot : slots.find? fun f => f.name == name with
    | none => rfl
    | some f =>
      have hname : f.name = name := by simpa using List.find?_some hslot
      simp only [h f (List.mem_of_find?_eq_some hslot) hname]
  | cons x before ih =>
    rw [List.cons_append, List.cons_append, fromMembers_cons, fromMembers_cons]
    simp only [ih]

end Reading

end ChatWire.Json
