import ChatWire.Cipher.Aes
import Mathlib.Tactic

/-! The block cipher inverts. Each step of a round has its inverse, and a run of rounds is undone from the
last one back; the round keys play no part, so this holds of every schedule. The blocks are finitely many, so
the inverse is one from both sides. -/

namespace ChatWire.Aes

/-! ### Sums of bytes -/

theorem xor_left_comm (a b c : UInt8) : a ^^^ (b ^^^ c) = b ^^^ (a ^^^ c) := by
  rw [← UInt8.xor_assoc, UInt8.xor_comm a, UInt8.xor_assoc]

theorem xor_cancel_left (a b : UInt8) : a ^^^ (a ^^^ b) = b := by
  rw [← UInt8.xor_assoc, UInt8.xor_self, UInt8.zero_xor]

theorem shiftLeft_xor (a b : UInt8) : (a ^^^ b) <<< 1 = (a <<< 1) ^^^ (b <<< 1) := by
  apply UInt8.toBitVec_inj.1
  simp [BitVec.shiftLeft_xor_distrib]

/-- The reduction happens when the highest bit falls out. -/
theorem double_eq (b : UInt8) : double b = (b <<< 1) ^^^ (if b.toBitVec.msb then 0x1b else 0) := by
  have hmsb : b.toBitVec.msb ↔ ¬ b < 128 := by
    rw [BitVec.msb_eq_decide, decide_eq_true_iff, UInt8.not_lt]
    rfl
  by_cases hb : b < 128 <;> simp [double, hmsb, hb]

theorem double_xor (a b : UInt8) : double (a ^^^ b) = double a ^^^ double b := by
  rw [double_eq, double_eq a, double_eq b, shiftLeft_xor, UInt8.toBitVec_xor, BitVec.msb_xor]
  cases a.toBitVec.msb <;> cases b.toBitVec.msb <;>
    simp [UInt8.xor_assoc, UInt8.xor_comm, xor_left_comm]

theorem times9_xor (a b : UInt8) : times9 (a ^^^ b) = times9 a ^^^ times9 b := by
  simp only [times9, double_xor]
  ac_rfl

theorem times11_xor (a b : UInt8) : times11 (a ^^^ b) = times11 a ^^^ times11 b := by
  simp only [times11, double_xor]
  ac_rfl

theorem times13_xor (a b : UInt8) : times13 (a ^^^ b) = times13 a ^^^ times13 b := by
  simp only [times13, double_xor]
  ac_rfl

theorem times14_xor (a b : UInt8) : times14 (a ^^^ b) = times14 a ^^^ times14 b := by
  simp only [times14, double_xor]
  ac_rfl

/-! ### The steps of a round -/

theorem unsubstitute_substitute (b : UInt8) : unsubstitute (substitute b) = b := by
  have htable : ∀ n < 256, unsubstitute (substitute (UInt8.ofNat n)) = UInt8.ofNat n := by decide +kernel
  simpa using htable b.toNat b.toNat_lt

theorem unsubBytes_subBytes (b : Block) : unsubBytes (subBytes b) = b := by
  simp [unsubBytes, subBytes, Block.map, Word.map, unsubstitute_substitute]

theorem mixColumn_rotate (w : Word) : mixColumn w.rotate = (mixColumn w).rotate := by
  simp only [mixColumn, Word.rotate, Word.mk.injEq]
  refine ⟨?_, ?_, ?_, ?_⟩ <;> ac_rfl

theorem unmixColumn_rotate (w : Word) : unmixColumn w.rotate = (unmixColumn w).rotate := by
  simp only [unmixColumn, Word.rotate, Word.mk.injEq]
  refine ⟨?_, ?_, ?_, ?_⟩ <;> ac_rfl

/-- The first row of the product of both matrices: 1, 0, 0, 0. No reduction is needed, the polynomials
themselves cancel. -/
theorem first_row (b : UInt8) :
    times14 (double b) ^^^ times11 b ^^^ times13 b ^^^ times9 (times3 b) = b ∧
      times14 (times3 b) ^^^ times11 (double b) ^^^ times13 b ^^^ times9 b = 0 ∧
      times14 b ^^^ times11 (times3 b) ^^^ times13 (double b) ^^^ times9 b = 0 ∧
      times14 b ^^^ times11 b ^^^ times13 (times3 b) ^^^ times9 (double b) = 0 := by
  simp only [times14, times11, times13, times9, times3, double_xor]
  simp only [UInt8.xor_assoc, UInt8.xor_comm, xor_left_comm, xor_cancel_left, UInt8.xor_self, UInt8.xor_zero,
    and_self]

theorem unmixColumn_mixColumn_b0 (w : Word) : (unmixColumn (mixColumn w)).b0 = w.b0 := by
  have h0 := (first_row w.b0).1
  have h1 := (first_row w.b1).2.1
  have h2 := (first_row w.b2).2.2.1
  have h3 := (first_row w.b3).2.2.2
  calc (unmixColumn (mixColumn w)).b0
      = (times14 (double w.b0) ^^^ times11 w.b0 ^^^ times13 w.b0 ^^^ times9 (times3 w.b0)) ^^^
          (times14 (times3 w.b1) ^^^ times11 (double w.b1) ^^^ times13 w.b1 ^^^ times9 w.b1) ^^^
          (times14 w.b2 ^^^ times11 (times3 w.b2) ^^^ times13 (double w.b2) ^^^ times9 w.b2) ^^^
          (times14 w.b3 ^^^ times11 w.b3 ^^^ times13 (times3 w.b3) ^^^ times9 (double w.b3)) := by
        simp only [unmixColumn, mixColumn, times14_xor, times11_xor, times13_xor, times9_xor]
        ac_rfl
    _ = w.b0 := by rw [h0, h1, h2, h3, UInt8.xor_zero, UInt8.xor_zero, UInt8.xor_zero]

/-- Both matrices are the same in every row but for a turn, so the first byte settles the others. -/
theorem unmixColumn_mixColumn (w : Word) : unmixColumn (mixColumn w) = w := by
  have hturn (v : Word) : unmixColumn (mixColumn v.rotate) = (unmixColumn (mixColumn v)).rotate := by
    rw [mixColumn_rotate, unmixColumn_rotate]
  have h0 := unmixColumn_mixColumn_b0 w
  have h1 := unmixColumn_mixColumn_b0 w.rotate
  have h2 := unmixColumn_mixColumn_b0 w.rotate.rotate
  have h3 := unmixColumn_mixColumn_b0 w.rotate.rotate.rotate
  rw [hturn] at h1
  rw [hturn, hturn] at h2
  rw [hturn, hturn, hturn] at h3
  exact (Word.mk.injEq ..).mpr ⟨h0, h1, h2, h3⟩

theorem map_unmixColumn_mixColumn (b : Block) : (b.map mixColumn).map unmixColumn = b := by
  simp [Block.map, unmixColumn_mixColumn]

/-! ### All rounds -/

/-- Steps that are each undone, undone from the last one back. -/
theorem foldr_foldl {β κ : Type} {f : β → κ → β} {g : κ → β → β} (h : ∀ k b, g k (f b k) = b) (ks : List κ)
    (b : β) : ks.foldr g (ks.foldl f b) = b := by
  induction ks generalizing b with
  | nil => rfl
  | cons k ks ih => rw [List.foldl_cons, List.foldr_cons, ih, h]

theorem Schedule.decrypt_encrypt (s : Schedule) (b : Block) : s.decrypt (s.encrypt b) = b := by
  have hround (k b : Block) :
      unsubBytes (unshiftRows (((((shiftRows (subBytes b)).map mixColumn).xor k).xor k).map unmixColumn)) = b := by
    rw [Block.xor_xor_cancel, map_unmixColumn_mixColumn, unshiftRows_shiftRows, unsubBytes_subBytes]
  simp only [decrypt, encrypt, Block.xor_xor_cancel, unshiftRows_shiftRows, unsubBytes_subBytes]
  rw [foldr_foldl (g := fun k b => unsubBytes (unshiftRows ((b.xor k).map unmixColumn))) hround,
    Block.xor_xor_cancel]

/-! ### No block is left out -/

instance : Finite Word :=
  Finite.of_injective (fun w => (w.b0.toFin, w.b1.toFin, w.b2.toFin, w.b3.toFin)) fun v w h => by
    simp only [Prod.mk.injEq, UInt8.toFin_inj] at h
    exact (Word.mk.injEq ..).mpr h

instance : Finite Block :=
  Finite.of_injective (fun b => (b.c0, b.c1, b.c2, b.c3)) fun a b h => by
    simp only [Prod.mk.injEq] at h
    exact (Block.mk.injEq ..).mpr h

/-- There are finitely many blocks, so each of them is the ciphertext of some block. -/
theorem Schedule.encrypt_decrypt (s : Schedule) (b : Block) : s.encrypt (s.decrypt b) = b := by
  have hundone : Function.LeftInverse s.decrypt s.encrypt := s.decrypt_encrypt
  have honto : Function.Surjective s.encrypt := Finite.surjective_of_injective hundone.injective
  exact hundone.rightInverse_of_surjective honto b

end ChatWire.Aes
