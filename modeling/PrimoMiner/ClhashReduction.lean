import Mathlib.Tactic.ComputeDegree
import Mathlib.Tactic.IntervalCases
import Mathlib.Tactic.LinearCombination
import PrimoMiner.Clhash
import PrimoMiner.Library.Gf2Poly

/-!
# The reduction of CLHash

The 128 bits of the accumulator as a polynomial over GF(2), and `precompReduction64_native` as the
remainder by `X ^ 64 + X ^ 4 + X ^ 3 + X + 1`.  The upper half times `0x1B` overflows the lower half by
four bits, which the table multiplies by `0x1B` once more.
-/

open Polynomial

namespace PrimoMiner

open Gf2Poly

theorem toPoly_vmullP64 (a b : BitVec 64) : toPoly (vmullP64 a b) = toPoly a * toPoly b :=
  toPoly_foldl_shiftLeft a b (by decide)

/-- `X ^ 4 + X ^ 3 + X + 1`, what `X ^ 64` is congruent to. -/
noncomputable def reductionTail : (ZMod 2)[X] := X ^ 4 + X ^ 3 + X + 1

noncomputable def reductionPoly : (ZMod 2)[X] := X ^ 64 + X ^ 4 + X ^ 3 + X + 1

theorem reductionPoly_eq : reductionPoly = X ^ 64 + reductionTail := by
  unfold reductionPoly reductionTail
  ring

theorem toPoly_0x1B : toPoly (0x1B : BitVec 64) = reductionTail := by
  apply toPoly_eq_of_coeff
  intro n
  simp only [reductionTail, coeff_add, coeff_X_pow, coeff_X, coeff_one]
  by_cases hn : n < 5
  · interval_cases n <;> decide
  · have hbit : (0x1B : BitVec 64).getLsbD n = false :=
      Nat.testBit_lt_two_pow (Nat.lt_of_lt_of_le (by decide : 0x1B < 2 ^ 5)
        (Nat.pow_le_pow_right (by decide) (by omega)))
    rw [hbit, if_neg (by omega), if_neg (by omega), if_neg (by omega), if_neg (by omega)]
    rfl

theorem reductionPoly_natDegree : reductionPoly.natDegree = 64 := by
  unfold reductionPoly
  compute_degree!

theorem reductionPoly_monic : reductionPoly.Monic := by
  unfold reductionPoly
  monicity!

/-! ## The overflow -/

theorem vgetqLaneU64_xor (a b : Vec128) (i : Nat) :
    vgetqLaneU64 (a ^^^ b) i = vgetqLaneU64 a i ^^^ vgetqLaneU64 b i := by
  apply BitVec.eq_of_getLsbD_eq
  intro j hj
  simp only [vgetqLaneU64, getLsbD_lane, BitVec.getLsbD_xor, hj, decide_true, Bool.true_and]

theorem toPoly_lanes (a : Vec128) :
    toPoly a = toPoly (vgetqLaneU64 a 1) * X ^ 64 + toPoly (vgetqLaneU64 a 0) := by
  have hsplit : a = vgetqLaneU64 a 1 ++ vgetqLaneU64 a 0 := by
    apply BitVec.eq_of_getLsbD_eq
    intro j hj
    rw [BitVec.getLsbD_append]
    simp only [vgetqLaneU64, getLsbD_lane]
    by_cases hlow : j < 64
    · simp [hlow]
    · have hsum : 64 + (j - 64) = j := by omega
      have hsub : j - 64 < 64 := by omega
      simp [hlow, hsum, hsub]
  conv_lhs => rw [hsplit]
  exact toPoly_append _ _

/-- The product of the upper half has no bit from 68 on. -/
theorem overflow_lt (x : BitVec 64) : (vgetqLaneU64 (vmullP64 x 0x1B) 1).toNat < 2 ^ 4 := by
  apply Nat.lt_pow_two_of_testBit
  intro j hj
  have hcoeff : ∀ n, 64 ≤ n → (toPoly x).coeff n = 0 := by
    intro n hn
    rw [coeff_toPoly, BitVec.getLsbD_of_ge x n hn]
    rfl
  have hproduct : (toPoly x * reductionTail).coeff (64 + j) = 0 := by
    have hX : (toPoly x * X).coeff (64 + j) = 0 := by
      rw [show 64 + j = 63 + j + 1 by omega, coeff_mul_X]
      exact hcoeff _ (by omega)
    simp only [reductionTail, mul_add, mul_one, coeff_add, coeff_mul_X_pow']
    rw [if_pos (by omega), if_pos (by omega), hcoeff _ (by omega), hcoeff _ (by omega), hX,
      hcoeff _ (by omega)]
    rfl
  rw [← toPoly_0x1B, ← toPoly_vmullP64, coeff_toPoly] at hproduct
  have hbit : (vmullP64 x 0x1B).getLsbD (64 + j) = false := by
    by_contra htrue
    rw [Bool.not_eq_false] at htrue
    rw [htrue] at hproduct
    exact absurd hproduct (by decide)
  show (vgetqLaneU64 _ 1).getLsbD j = false
  rw [vgetqLaneU64, getLsbD_lane, hbit, Bool.and_false]

/-- What the table gives for the upper half of the product. -/
def overflowTerm (q2Shifted : Vec128) : BitVec 64 :=
  let shuffleTable := ofLanes 16 fun i =>
    BitVec.ofNat 8
      ([0, 27, 54, 45, 108, 119, 90, 65, 216, 195, 238, 245, 180, 175, 130, 153].getD i 0)
  vgetqLaneU64 (vqtbl1qS8 shuffleTable (q2Shifted &&& ofLanes 16 fun _ => (0x8F : BitVec 8))) 0

/-- Each of the sixteen entries is a product by `0x1B`; the other bytes of the index are 0, and so is the
entry there. -/
theorem overflowTerm_eq {excess : BitVec 64} (hexcess : excess.toNat < 2 ^ 4) :
    (overflowTerm (excess.setWidth 128)).setWidth 128 = vmullP64 excess 0x1B := by
  have hall : ∀ k < 2 ^ 4, (overflowTerm ((BitVec.ofNat 64 k).setWidth 128)).setWidth 128 =
      vmullP64 (BitVec.ofNat 64 k) 0x1B := by decide
  have hk := hall excess.toNat hexcess
  rwa [BitVec.ofNat_toNat, BitVec.setWidth_eq] at hk

theorem precompReduction64Native_eq (a : Vec128) :
    precompReduction64Native a =
      overflowTerm ((vgetqLaneU64 (vmullP64 (vgetqLaneU64 a 1) 0x1B) 1).setWidth 128) ^^^
        (vgetqLaneU64 (vmullP64 (vgetqLaneU64 a 1) 0x1B) 0 ^^^ vgetqLaneU64 a 0) := by
  have hshift : ∀ q2 : Vec128, (vgetqLaneU64 q2 1).setWidth 128 = q2 >>> 64 := by
    intro q2
    apply BitVec.eq_of_getLsbD_eq
    intro j hj
    rw [BitVec.getLsbD_setWidth, vgetqLaneU64, getLsbD_lane, BitVec.getLsbD_ushiftRight]
    by_cases hlt : j < 64
    · simp [hlt, hj]
    · simp [hlt, BitVec.getLsbD_of_ge q2 (64 + j) (by omega)]
  rw [hshift, ← vgetqLaneU64_xor]
  exact vgetqLaneU64_xor _ _ 0

/-! ## The remainder -/

/-- For every accumulator the reduction is the remainder by `X ^ 64 + X ^ 4 + X ^ 3 + X + 1`. -/
theorem precompReduction64Native_modByMonic (a : Vec128) :
    toPoly (precompReduction64Native a) = toPoly a %ₘ (X ^ 64 + X ^ 4 + X ^ 3 + X + 1) := by
  have hover := overflow_lt (vgetqLaneU64 a 1)
  have hproduct := toPoly_vmullP64 (vgetqLaneU64 a 1) 0x1B
  have hreduced : toPoly (precompReduction64Native a) =
      toPoly (vgetqLaneU64 (vmullP64 (vgetqLaneU64 a 1) 0x1B) 1) * reductionTail +
        (toPoly (vgetqLaneU64 (vmullP64 (vgetqLaneU64 a 1) 0x1B) 0) + toPoly (vgetqLaneU64 a 0)) := by
    rw [precompReduction64Native_eq, toPoly_xor, toPoly_xor, ← toPoly_0x1B, ← toPoly_vmullP64,
      ← overflowTerm_eq hover, toPoly_setWidth _ (by decide : 64 ≤ 128)]
  rw [toPoly_lanes (vmullP64 _ _), toPoly_0x1B] at hproduct
  symm
  apply modByMonic_eq_toPoly (q := toPoly (vgetqLaneU64 a 1) +
    toPoly (vgetqLaneU64 (vmullP64 (vgetqLaneU64 a 1) 0x1B) 1)) reductionPoly_monic reductionPoly_natDegree
  rw [hreduced, reductionPoly_eq, toPoly_lanes a]
  -- in characteristic 2 the multiples of the tail cancel
  have hupper := CharTwo.add_self_eq_zero (toPoly (vgetqLaneU64 a 1) * reductionTail)
  have hoverflow := CharTwo.add_self_eq_zero
    (toPoly (vgetqLaneU64 (vmullP64 (vgetqLaneU64 a 1) 0x1B) 1) * reductionTail)
  linear_combination -hproduct - hupper - hoverflow

end PrimoMiner
