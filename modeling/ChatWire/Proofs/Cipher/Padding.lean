import ChatWire.Cipher.Cbc
import Mathlib.Data.Nat.PSub
import Mathlib.Tactic

/-! Padded texts are whole blocks, and stripping gives back what was padded. Nothing else can be stripped, and
nothing is ever looked up or cut off that is not there. -/

namespace ChatWire.Padding

/-- how much filler goes behind `b` -/
def fillerSize (size : Nat) (b : Bytes) : Nat := size - b.length % size

theorem legalSize_iff {size : Nat} : legalSize size ↔ 0 < size ∧ size ≤ 255 := by
  rw [legalSize, Bool.and_eq_true, decide_eq_true_iff, decide_eq_true_iff]

/-- The padded text of `b`. -/
def padded (size : Nat) (b : Bytes) : Bytes :=
  b ++ List.replicate (fillerSize size b) (UInt8.ofNat (fillerSize size b))

theorem add_eq {size : Nat} (h : legalSize size) (b : Bytes) : add size b = .ok (padded size b) := by
  simp [add, h, padded, fillerSize]

theorem fillerSize_pos {size : Nat} (h : legalSize size) (b : Bytes) : 0 < fillerSize size b :=
  Nat.sub_pos_of_lt (Nat.mod_lt _ (legalSize_iff.1 h).1)

theorem fillerSize_le (size : Nat) (b : Bytes) : fillerSize size b ≤ size := Nat.sub_le ..

theorem length_padded {size : Nat} (h : legalSize size) (b : Bytes) :
    (padded size b).length = size * (b.length / size + 1) := by
  have hmod : b.length % size < size := Nat.mod_lt _ (legalSize_iff.1 h).1
  have hdiv := Nat.div_add_mod b.length size
  rw [padded, List.length_append, List.length_replicate, fillerSize, Nat.mul_add, Nat.mul_one]
  omega

/-- The last byte says how much filler there is, and all of it is that byte. -/
theorem strip_padded {size : Nat} (h : legalSize size) (b : Bytes) : strip size (padded size b) = .ok b := by
  have hpos := fillerSize_pos h b
  have hsize := (legalSize_iff.1 h).2
  have hle := fillerSize_le size b
  have hlen := length_padded h b
  have hvalue : (UInt8.ofNat (fillerSize size b)).toNat = fillerSize size b := by
    rw [UInt8.toNat_ofNat']
    omega
  have hlast : ((padded size b).getLastD 0).toNat = fillerSize size b := by
    obtain ⟨n, hn⟩ := Nat.exists_eq_succ_of_ne_zero hpos.ne'
    rw [padded, List.getLastD_eq_getLast?, List.getLast?_append, hn, List.getLast?_replicate]
    simpa [hn] using hvalue
  have hkeep : (padded size b).length - fillerSize size b = b.length := by
    rw [padded, List.length_append, List.length_replicate, Nat.add_sub_cancel]
  have hnil : padded size b ≠ [] := by
    rw [padded]
    simp [hpos.ne']
  have hwhole : (padded size b).length % size = 0 := by rw [hlen, Nat.mul_mod_right]
  have hfiller : ((padded size b).drop b.length).any (fun x => x.toNat != fillerSize size b) = false := by
    rw [padded, List.drop_left]
    simp [hvalue]
  have htake : (padded size b).take b.length = b := List.take_left
  simp only [strip, h, hlast, hkeep, hwhole, hfiller, htake]
  simp [hnil, hpos.ne', hle]

/-- Filler taken off whole blocks is as much as fills them up again. -/
theorem fillerSize_of_length_add {size n : Nat} {b : Bytes} (hpos : 0 < n) (hle : n ≤ size)
    (hwhole : (b.length + n) % size = 0) : fillerSize size b = n := by
  rw [fillerSize]
  obtain ⟨q, hq⟩ := Nat.dvd_of_mod_eq_zero hwhole
  obtain ⟨m, rfl⟩ : ∃ m, q = m + 1 := Nat.exists_eq_succ_of_ne_zero (by rintro rfl; omega)
  have hlen : b.length = size * m + (size - n) := by
    rw [Nat.mul_succ] at hq
    omega
  rw [hlen, Nat.mul_add_mod, Nat.mod_eq_of_lt (by omega)]
  omega

/-- Whole blocks that are not nothing are no shorter than the filler that a last byte may tell of. -/
theorem size_le_of_whole {size : Nat} {b : Bytes} (hne : b ≠ []) (hwhole : b.length % size = 0) : size ≤ b.length :=
  Nat.le_of_dvd (List.length_pos_of_ne_nil hne) (Nat.dvd_of_mod_eq_zero hwhole)

/-- What is stripped is the filler of what is left. -/
theorem strip_eq_ok_iff {size : Nat} (h : legalSize size) {b p : Bytes} :
    strip size b = .ok p ↔ b = padded size p := by
  refine ⟨fun hstrip => ?_, fun hb => hb ▸ strip_padded h p⟩
  simp only [strip, h] at hstrip
  generalize (b.getLastD 0).toNat = n at hstrip
  split_ifs at hstrip with _ hshape hfiller
  simp only [not_or, not_not, List.isEmpty_iff, Bool.not_eq_true, List.any_eq_false, bne_iff_ne, not_lt]
    at hshape hfiller
  obtain ⟨hne, hwhole⟩ := hshape
  obtain ⟨hpos, hle, hsame⟩ := hfiller
  have hsize := size_le_of_whole hne hwhole
  have hp : p = b.take (b.length - n) := (Except.ok.inj hstrip).symm
  have hlen : p.length + n = b.length := by
    rw [hp, List.length_take]
    omega
  have hfill : fillerSize size p = n :=
    fillerSize_of_length_add (Nat.pos_of_ne_zero hpos) hle (by rw [hlen, hwhole])
  have hdrop : b.drop (b.length - n) = List.replicate n (UInt8.ofNat n) := by
    refine List.eq_replicate_iff.2 ⟨by rw [List.length_drop]; omega, fun x hx => ?_⟩
    rw [← hsame x hx, UInt8.ofNat_toNat]
  rw [padded, hfill, ← hdrop, hp, List.take_append_drop]

/-! ### One step at a time

A remainder needs a number to divide by, a difference one that is not too large, a byte a place that the text has and
a cut a text that is long enough. Where a step lacks it, there is no outcome at all. A text may be of any length. -/

/-- the remainder, if there is something to divide by -/
def mod? (n size : Nat) : Option Nat := if size = 0 then none else some (n % size)

/-- the two sides of a cut, if it is not beyond the end -/
def cut? (n : Nat) (b : Bytes) : Option (Bytes × Bytes) := if n ≤ b.length then some (b.splitAt n) else none

/-- Filler added by steps each of which can be taken. -/
def addBySteps? (size : Nat) (b : Bytes) : Option (Except CipherError Bytes) :=
  if ¬ legalSize size then some (.error (.blockSize size))
  else do
    let rest ← mod? b.length size
    let n ← Nat.psub size rest
    pure (.ok (b ++ List.replicate n (UInt8.ofNat n)))

/-- Filler taken off by steps each of which can be taken. -/
def stripBySteps? (size : Nat) (b : Bytes) : Option (Except CipherError Bytes) :=
  if ¬ legalSize size then some (.error (.blockSize size))
  else if b.isEmpty then some (.error (.notAligned b.length size))
  else do
    let rest ← mod? b.length size
    if rest ≠ 0 then pure (.error (.notAligned b.length size))
    else
      let last ← Nat.psub b.length 1
      let value ← b[last]?
      let n := value.toNat
      if n = 0 ∨ size < n then pure (.error .padding)
      else
        let keep ← Nat.psub b.length n
        let (text, filler) ← cut? keep b
        if filler.any (fun x => x.toNat != n) then pure (.error .padding) else pure (.ok text)

theorem mod?_eq {size : Nat} (h : legalSize size) (n : Nat) : mod? n size = some (n % size) :=
  if_neg (legalSize_iff.1 h).1.ne'

theorem cut?_eq {n : Nat} {b : Bytes} (h : n ≤ b.length) : cut? n b = some (b.take n, b.drop n) := by
  rw [cut?, if_pos h, List.splitAt_eq]

theorem getElem?_last {b : Bytes} (h : b ≠ []) : b[b.length - 1]? = some (b.getLastD 0) := by
  rw [← List.getLast?_eq_getElem?, List.getLastD_eq_getLast?]
  simp [List.getLast?_eq_some_getLast h]

theorem addBySteps?_eq (size : Nat) (b : Bytes) : addBySteps? size b = some (add size b) := by
  rw [addBySteps?, add]
  by_cases hlegal : legalSize size
  · have hrest : b.length % size ≤ size := (Nat.mod_lt _ (legalSize_iff.1 hlegal).1).le
    simp [hlegal, mod?_eq hlegal, Nat.psub_eq_sub hrest]
  · simp [hlegal]

/-- Each check comes before the steps that rely on it. -/
theorem stripBySteps?_eq (size : Nat) (b : Bytes) : stripBySteps? size b = some (strip size b) := by
  rw [stripBySteps?, strip]
  by_cases hlegal : legalSize size
  case neg => simp [hlegal]
  by_cases hne : b = []
  case pos => simp [hlegal, hne]
  have hpos : 0 < b.length := List.length_pos_of_ne_nil hne
  simp only [hlegal, not_true, if_false, List.isEmpty_iff, hne, mod?_eq hlegal, Nat.psub_eq_sub hpos,
    getElem?_last hne, Option.bind_eq_bind, Option.bind_some, false_or]
  by_cases hwhole : b.length % size = 0
  case neg => simp [hwhole]
  simp only [hwhole, ne_eq, not_true, if_false]
  generalize (b.getLastD 0).toNat = n
  have hsize := size_le_of_whole hne hwhole
  by_cases hn : n = 0 ∨ size < n
  case pos =>
    have hrefused : n = 0 ∨ size < n ∨ (b.drop (b.length - n)).any (fun x => x.toNat != n) := by tauto
    rw [if_pos hn, if_pos hrefused]
    rfl
  have hle : n ≤ b.length := by omega
  obtain ⟨hzero, hlarge⟩ := not_or.1 hn
  simp only [hzero, hlarge, false_or, if_false, Nat.psub_eq_sub hle, cut?_eq (Nat.sub_le b.length n),
    Option.bind_some]
  split_ifs <;> rfl

/-- Filler comes off just what it was added to, in whole blocks that are longer by a byte at least and a block at
most. A block has 1 to 255 bytes; any other size is refused, and no step is ever out of range. -/
theorem strips_what_it_pads (size : Nat) :
    (1 ≤ size → size ≤ 255 →
        (∀ d b, strip size d = .ok b ↔ add size b = .ok d) ∧
          ∀ b, ∃ d, add size b = .ok d ∧ 0 < d.length ∧ size ∣ d.length ∧
            b.length + 1 ≤ d.length ∧ d.length ≤ b.length + size) ∧
      (size = 0 ∨ 255 < size → ∀ b, add size b = .error (.blockSize size) ∧ strip size b = .error (.blockSize size)) ∧
      ∀ b, addBySteps? size b = some (add size b) ∧ stripBySteps? size b = some (strip size b) := by
  refine ⟨fun hpos hle => ?_, fun hsize b => ?_, fun b => ⟨addBySteps?_eq size b, stripBySteps?_eq size b⟩⟩
  · have hlegal : legalSize size := legalSize_iff.2 ⟨hpos, hle⟩
    constructor
    · intro d b
      rw [strip_eq_ok_iff hlegal, add_eq hlegal, Except.ok.injEq, eq_comm]
    · intro b
      have hlen : (padded size b).length = b.length + fillerSize size b := by simp [padded]
      have hfiller := fillerSize_pos hlegal b
      have hfull := fillerSize_le size b
      have hwhole : size ∣ (padded size b).length := ⟨_, length_padded hlegal b⟩
      exact ⟨padded size b, add_eq hlegal b, by omega, hwhole, by omega, by omega⟩
  · have hlegal : ¬ legalSize size := by
      rw [legalSize_iff]
      omega
    simp [add, strip, hlegal]

/-- a block of the largest size, filler that breaks off, and a size too large -/
theorem strips_what_it_pads_largest :
    let b : Bytes := List.replicate 255 255
    add 255 b = .ok (b ++ b) ∧ strip 255 (b ++ b) = .ok b ∧ 255 ∣ (b ++ b).length ∧
      (∀ b, add 3 b ≠ .ok [7, 2, 3]) ∧ stripBySteps? 3 [7, 2, 3] = some (.error .padding) ∧
      strip 256 b = .error (.blockSize 256) := by
  intro b
  obtain ⟨hinverse, hlength⟩ := (strips_what_it_pads 255).1 (by decide) (by decide)
  have hadd : add 255 b = .ok (b ++ b) := by decide +kernel
  have hrefused : strip 3 [7, 2, 3] = .error .padding := by decide
  obtain ⟨d, hd, -, hwhole, -⟩ := hlength b
  obtain rfl : d = b ++ b := Except.ok.inj (hd.symm.trans hadd)
  refine ⟨hadd, (hinverse (b ++ b) b).2 hadd, hwhole, fun c hc => ?_, ?_, ?_⟩
  · have hstrip := (((strips_what_it_pads 3).1 (by decide) (by decide)).1 [7, 2, 3] c).2 hc
    rw [hrefused] at hstrip
    cases hstrip
  · rw [((strips_what_it_pads 3).2.2 [7, 2, 3]).2, hrefused]
  · exact ((strips_what_it_pads 256).2.1 (by decide) b).2

end ChatWire.Padding
