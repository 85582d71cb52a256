import ChatWire.Json.Draft
import ChatWire.Proofs.Json.Lexical

/-! What the scanner makes of a written value: the tree of the value, and what followed the text. -/

namespace ChatWire.Json

open Text (utf8 utf8_cons utf8_append)
open Lexical (escapedBytes Ends ends_cons)

mutual

/-- how deep the lists and objects of a value nest -/
def depth : Json → Nat
  | .arr items => itemsDepth items + 1
  | .obj fields => fieldsDepth fields + 1
  | _ => 0

def itemsDepth : List Json → Nat
  | [] => 0
  | j :: r => max j.depth (itemsDepth r)

def fieldsDepth : List (String × Json) → Nat
  | [] => 0
  | (_, j) :: r => max j.depth (fieldsDepth r)

end

mutual

/-- Whether all numbers of a value are integers that 64 bits hold, signed or not. -/
def isIntegral : Json → Bool
  | .num (.int n) => leastInt64 ≤ n && n < UInt64.size
  | .num (.float _) => false
  | .arr items => itemsIntegral items
  | .obj fields => fieldsIntegral fields
  | _ => true

def itemsIntegral : List Json → Bool
  | [] => true
  | j :: r => j.isIntegral && itemsIntegral r

def fieldsIntegral : List (String × Json) → Bool
  | [] => true
  | (_, j) :: r => j.isIntegral && fieldsIntegral r

end

theorem isIntegral_int {n : Int} (h : isInt64 n) : (int n).isIntegral := by
  obtain ⟨hlow, hhigh⟩ := isInt64_iff.1 h
  have hlt : n < UInt64.size := hhigh.trans_lt (by decide)
  simp only [int, isIntegral, hlow, hlt, decide_true, Bool.and_self]

mutual

/-- The tree of a value whose names stand in the text as `spell` has them. -/
def draftAs (spell : String → Bytes) : Json → Draft
  | .null => .null
  | .bool b => .bool b
  | .num n => .number (.ok n)
  | .str s => .string (.ok s)
  | .arr items => .array (itemsAs spell items)
  | .obj fields => .object (fieldsAs spell fields)

def itemsAs (spell : String → Bytes) : List Json → Items
  | [] => .closed
  | j :: r => .cons (j.draftAs spell) (itemsAs spell r)

def fieldsAs (spell : String → Bytes) : List (String × Json) → Members
  | [] => .closed
  | (k, j) :: r => .cons ⟨spell k, true, .ok k, .ok ()⟩ (j.draftAs spell) (fieldsAs spell r)

end

mutual

theorem toDraft_eq_draftAs : ∀ j : Json, j.toDraft = j.draftAs Text.toBytes
  | .null | .bool _ | .num _ | .str _ => rfl
  | .arr items => by rw [toDraft, draftAs, itemsToDraft_eq_itemsAs items]
  | .obj fields => by rw [toDraft, draftAs, fieldsToDraft_eq_fieldsAs fields]

theorem itemsToDraft_eq_itemsAs : ∀ l : List Json, itemsToDraft l = itemsAs Text.toBytes l
  | [] => rfl
  | j :: r => by rw [itemsToDraft, itemsAs, toDraft_eq_draftAs j, itemsToDraft_eq_itemsAs r]

theorem fieldsToDraft_eq_fieldsAs : ∀ l : List (String × Json), fieldsToDraft l = fieldsAs Text.toBytes l
  | [] => rfl
  | (k, j) :: r => by rw [fieldsToDraft, fieldsAs, toDraft_eq_draftAs j, fieldsToDraft_eq_fieldsAs r]

end

/-! The first byte of a value. -/

/-- a byte that a value can start with: neither a blank nor the end of a list -/
def Starts (b : UInt8) : Prop := Lexical.isBlank b = false ∧ b ≠ 93

/-- the bytes that only a number starts with -/
theorem starts_of_number {b : UInt8} (h : b = 45 ∨ Lexical.isDigit b) :
    Starts b ∧ b ≠ 34 ∧ b ≠ 91 ∧ b ≠ 123 ∧ b ≠ 110 ∧ b ≠ 116 ∧ b ≠ 102 := by
  have hne (c : UInt8) (hc : ¬ (c = 45 ∨ Lexical.isDigit c)) : b ≠ c := by
    rintro rfl
    exact hc h
  refine ⟨⟨?_, hne 93 (by decide)⟩, hne 34 (by decide), hne 91 (by decide), hne 123 (by decide),
    hne 110 (by decide), hne 116 (by decide), hne 102 (by decide)⟩
  simp [Lexical.isBlank, hne 32 (by decide), hne 10 (by decide), hne 13 (by decide), hne 9 (by decide)]

theorem exists_cons_toChars_int (n : Int) :
    ∃ b t, utf8 (Number.int n).toChars = b :: t ∧ (b = 45 ∨ Lexical.isDigit b) := by
  rw [Lexical.toChars_int]
  split_ifs
  · exact ⟨45, _, rfl, .inl rfl⟩
  · obtain ⟨b, t, hb⟩ := List.exists_cons_of_ne_nil (Lexical.digitBytes_ne_nil n.natAbs)
    exact ⟨b, t, hb, .inr (Lexical.isDigit_of_mem_digitBytes b (by rw [hb]; exact List.mem_cons_self ..))⟩

theorem exists_cons_toChars {j : Json} (hj : j.isIntegral) : ∃ b t, utf8 j.toChars = b :: t ∧ Starts b := by
  match j, hj with
  | .null, _ => exact ⟨_, _, rfl, by decide, by decide⟩
  | .bool true, _ => exact ⟨_, _, rfl, by decide, by decide⟩
  | .bool false, _ => exact ⟨_, _, rfl, by decide, by decide⟩
  | .str s, _ => exact ⟨34, _, Lexical.utf8_quote s, by decide, by decide⟩
  | .arr [], _ => exact ⟨_, _, rfl, by decide, by decide⟩
  | .arr (_ :: _), _ => exact ⟨_, _, rfl, by decide, by decide⟩
  | .obj [], _ => exact ⟨_, _, rfl, by decide, by decide⟩
  | .obj (_ :: _), _ => exact ⟨_, _, rfl, by decide, by decide⟩
  | .num (.int n), _ =>
    obtain ⟨b, t, hb, hstart⟩ := exists_cons_toChars_int n
    exact ⟨b, t, hb, (starts_of_number hstart).1⟩

theorem skipBlanks_cons {b : UInt8} (hb : Lexical.isBlank b = false) (r : Bytes) :
    Lexical.skipBlanks (b :: r) = b :: r := by
  rw [Lexical.skipBlanks, List.dropWhile_cons_of_neg (by simp [hb])]

/-! One step of the scanner. -/

namespace Draft

theorem scanString_escapedBytes (s : String) (r : Bytes) :
    scanString (escapedBytes s ++ 34 :: r) = (.string (.ok s), r) := by
  simp only [scanString, Lexical.skipString_escapedBytes, Lexical.stringText_escapedBytes]

theorem scanKey_escapedBytes (k : String) (r : Bytes) :
    scanKey (escapedBytes k ++ 34 :: r) = (⟨escapedBytes k, true, .ok k, .ok ()⟩, r) := by
  have hlen : (escapedBytes k ++ 34 :: r).length - r.length - 1 = (escapedBytes k).length := by
    simp only [List.length_append, List.length_cons]
    omega
  simp only [scanKey, Lexical.skipString_escapedBytes, Lexical.stringText_escapedBytes, hlen, List.take_left]

theorem scan_number {n : Int} (hn : (Json.num (.int n)).isIntegral) {r : Bytes} (hr : Ends r) (fuel : Nat) :
    scan (fuel + 1) (utf8 (Number.int n).toChars ++ r) = (.number (.ok (.int n)), r) := by
  simp only [isIntegral, Bool.and_eq_true, decide_eq_true_eq] at hn
  obtain ⟨m, hm, hnum⟩ := Lexical.numeral_int hn.1 hn.2 hr.stops
  -- the scanner goes by the first byte, which is a minus sign or a digit
  obtain ⟨b, t, hb, hfirst⟩ := exists_cons_toChars_int n
  obtain ⟨⟨hblank, -⟩, h34, h91, h123, h110, h116, h102⟩ := starts_of_number hfirst
  rw [hb, List.cons_append] at hm ⊢
  rw [scan, skipBlanks_cons hblank]
  simp only [h34, h91, h123, h110, h116, h102, if_false]
  rw [if_pos hfirst, scanNumber, hm]
  simp only [hnum]

theorem scanItems_first {b : UInt8} (hb : Starts b) (fuel : Nat) (t : Bytes) :
    scanItems (fuel + 1) true (b :: t) =
      (.cons (scan fuel (b :: t)).1 (scanItems fuel false (scan fuel (b :: t)).2).1,
        (scanItems fuel false (scan fuel (b :: t)).2).2) := by
  rw [scanItems, skipBlanks_cons hb.1]
  simp only [hb.2, if_false, if_true]

theorem scanItems_next {b : UInt8} (hb : Starts b) (fuel : Nat) (t : Bytes) :
    scanItems (fuel + 1) false (44 :: b :: t) =
      (.cons (scan fuel (b :: t)).1 (scanItems fuel false (scan fuel (b :: t)).2).1,
        (scanItems fuel false (scan fuel (b :: t)).2).2) := by
  rw [scanItems, skipBlanks_cons (by decide)]
  simp only [skipBlanks_cons hb.1, hb.2, if_false, if_true, Bool.false_eq_true]
  rfl

/-- A name and its colon are taken off. -/
theorem scanMember_name (fuel : Nat) (k : String) (t : Bytes) :
    scanMember (fuel + 1) (utf8 (quote k) ++ 58 :: t) =
      (.cons ⟨escapedBytes k, true, .ok k, .ok ()⟩ (scan fuel t).1 (scanMembers fuel false (scan fuel t).2).1,
        (scanMembers fuel false (scan fuel t).2).2) := by
  rw [Lexical.utf8_quote, List.cons_append, List.append_assoc, List.singleton_append, scanMember]
  simp only [scanKey_escapedBytes, skipBlanks_cons (show Lexical.isBlank 58 = false by decide), ne_eq,
    not_true_eq_false, if_false, if_true]

theorem scanMembers_first (fuel : Nat) (k : String) (t : Bytes) :
    scanMembers (fuel + 1) true (utf8 (quote k) ++ t) = scanMember fuel (utf8 (quote k) ++ t) := by
  rw [Lexical.utf8_quote, List.cons_append, scanMembers, skipBlanks_cons (by decide)]
  rfl

theorem scanMembers_next (fuel : Nat) (k : String) (t : Bytes) :
    scanMembers (fuel + 1) false (44 :: (utf8 (quote k) ++ t)) = scanMember fuel (utf8 (quote k) ++ t) := by
  rw [Lexical.utf8_quote, List.cons_append, scanMembers, skipBlanks_cons (by decide)]
  simp only [skipBlanks_cons (show Lexical.isBlank 34 = false by decide)]
  rfl

theorem ends_items (l : List Json) (r : Bytes) : Ends (utf8 (itemsToChars l) ++ r) := by
  cases l with
  | nil => exact ends_cons (.inr (.inl rfl)) _
  | cons j l => exact ends_cons (.inl rfl) _

theorem ends_fields (l : List (String × Json)) (r : Bytes) : Ends (utf8 (fieldsToChars l) ++ r) := by
  cases l with
  | nil => exact ends_cons (.inr (.inr rfl)) _
  | cons f l => exact ends_cons (.inl rfl) _

/-! The induction is on the value. Each call of the scanner needs one unit of fuel, and at most three calls
go by for a byte of the text. -/

mutual

theorem scan_toChars : ∀ {j : Json}, j.isIntegral → ∀ {r : Bytes}, Ends r → ∀ fuel : Nat,
    3 * (utf8 j.toChars).length ≤ fuel → scan fuel (utf8 j.toChars ++ r) = (j.draftAs escapedBytes, r)
  | .null, _, _, _, fuel + 1, _ => rfl
  | .bool true, _, _, _, fuel + 1, _ => rfl
  | .bool false, _, _, _, fuel + 1, _ => rfl
  | .num (.int n), _, _, _, 0, hf => by
    obtain ⟨b, t, hb, -⟩ := exists_cons_toChars_int n
    rw [toChars, hb, List.length_cons] at hf
    omega
  | .num (.int n), hj, r, hr, fuel + 1, _ => scan_number hj hr fuel
  | .str s, _, r, _, fuel + 1, _ => by
    rw [toChars, Lexical.utf8_quote, List.cons_append, scan, skipBlanks_cons (by decide), List.append_assoc]
    exact scanString_escapedBytes s r
  | .arr [], _, _, _, fuel + 2, _ => rfl
  | .obj [], _, _, _, fuel + 2, _ => rfl
  | .arr (j :: l), hj, r, _, fuel + 2, hf => by
    simp only [isIntegral, itemsIntegral, Bool.and_eq_true] at hj
    obtain ⟨b, t, hb, hstart⟩ := exists_cons_toChars hj.1
    have htext : utf8 (toChars (.arr (j :: l))) = 91 :: (utf8 j.toChars ++ utf8 (itemsToChars l)) := by
      rw [toChars, utf8_cons, utf8_append]
      rfl
    rw [htext, List.length_cons, List.length_append] at hf
    have hitem := scan_toChars hj.1 (ends_items l r) fuel (by omega)
    have hrest := scanItems_toChars hj.2 r fuel (by omega)
    rw [htext, List.cons_append, List.append_assoc, scan, skipBlanks_cons (by decide)]
    rw [hb, List.cons_append] at hitem ⊢
    simp only [scanItems_first hstart, hitem, hrest, draftAs, itemsAs]
    rfl
  | .obj ((k, j) :: l), hj, r, _, fuel + 3, hf => by
    simp only [isIntegral, fieldsIntegral, Bool.and_eq_true] at hj
    have htext : utf8 (toChars (.obj ((k, j) :: l))) =
        123 :: (utf8 (quote k) ++ 58 :: (utf8 j.toChars ++ utf8 (fieldsToChars l))) := by
      rw [toChars, utf8_cons, utf8_append, utf8_cons, utf8_append]
      rfl
    rw [htext, List.length_cons, List.length_append, List.length_cons, List.length_append] at hf
    have hvalue := scan_toChars hj.1 (ends_fields l r) fuel (by omega)
    have hrest := scanMembers_toChars hj.2 r fuel (by omega)
    rw [htext, List.cons_append, List.append_assoc, List.cons_append, List.append_assoc, scan,
      skipBlanks_cons (by decide)]
    simp only [scanMembers_first, scanMember_name, hvalue, hrest, draftAs, fieldsAs]
    rfl

theorem scanItems_toChars : ∀ {l : List Json}, itemsIntegral l → ∀ (r : Bytes) (fuel : Nat),
    3 * (utf8 (itemsToChars l)).length ≤ fuel →
      scanItems fuel false (utf8 (itemsToChars l) ++ r) = (itemsAs escapedBytes l, r)
  | [], _, _, fuel + 1, _ => rfl
  | j :: l, hl, r, fuel + 1, hf => by
    simp only [itemsIntegral, Bool.and_eq_true] at hl
    obtain ⟨b, t, hb, hstart⟩ := exists_cons_toChars hl.1
    have htext : utf8 (itemsToChars (j :: l)) = 44 :: (utf8 j.toChars ++ utf8 (itemsToChars l)) := by
      rw [itemsToChars, utf8_cons, utf8_append]
      rfl
    rw [htext, List.length_cons, List.length_append] at hf
    have hitem := scan_toChars hl.1 (ends_items l r) fuel (by omega)
    have hrest := scanItems_toChars hl.2 r fuel (by omega)
    rw [htext, List.cons_append, List.append_assoc]
    rw [hb, List.cons_append] at hitem ⊢
    simp only [scanItems_next hstart, hitem, hrest, itemsAs]

theorem scanMembers_toChars : ∀ {l : List (String × Json)}, fieldsIntegral l → ∀ (r : Bytes) (fuel : Nat),
    3 * (utf8 (fieldsToChars l)).length ≤ fuel →
      scanMembers fuel false (utf8 (fieldsToChars l) ++ r) = (fieldsAs escapedBytes l, r)
  | [], _, _, fuel + 1, _ => rfl
  | (k, j) :: l, hl, r, fuel + 2, hf => by
    simp only [fieldsIntegral, Bool.and_eq_true] at hl
    have htext : utf8 (fieldsToChars ((k, j) :: l)) =
        44 :: (utf8 (quote k) ++ 58 :: (utf8 j.toChars ++ utf8 (fieldsToChars l))) := by
      rw [fieldsToChars, utf8_cons, utf8_append, utf8_cons, utf8_append]
      rfl
    rw [htext, List.length_cons, List.length_append, List.length_cons, List.length_append] at hf
    have hvalue := scan_toChars hl.1 (ends_fields l r) fuel (by omega)
    have hrest := scanMembers_toChars hl.2 r fuel (by omega)
    rw [htext, List.cons_append, List.append_assoc, List.cons_append, List.append_assoc]
    simp only [scanMembers_next, scanMember_name, hvalue, hrest, fieldsAs]

end

/-- The scanner inverts the printer. -/
theorem ofText_render {j : Json} (hj : j.isIntegral) :
    ofText (Text.toBytes j.render) = (j.draftAs escapedBytes, []) := by
  have hscan := scan_toChars hj Lexical.ends_nil (3 * (utf8 j.toChars).length + 3) (by omega)
  rwa [List.append_nil, ← Text.toBytes_ofList] at hscan

end Draft

end ChatWire.Json
