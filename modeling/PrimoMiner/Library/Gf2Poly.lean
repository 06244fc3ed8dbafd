import Mathlib

/-!
# Bit vectors as polynomials over GF(2)

Bit `i` of a vector is the coefficient of `X ^ i`.  Exclusive or is addition, a shift that loses no bit
is multiplication by a power of `X`, and shifts summed over the bits of a factor are the product.
-/

open Polynomial

namespace Gf2Poly

variable {w v : Nat}

noncomputable def toPoly (x : BitVec w) : (ZMod 2)[X] :=
  ∑ i ∈ Finset.range w, if x.getLsbD i then X ^ i else 0

theorem coeff_toPoly (x : BitVec w) (n : Nat) :
    (toPoly x).coeff n = if x.getLsbD n then 1 else 0 := by
  have hterm : ∀ i, (if x.getLsbD i then X ^ i else (0 : (ZMod 2)[X])).coeff n =
      if n = i then (if x.getLsbD n then 1 else 0) else 0 := by
    intro i
    by_cases hi : n = i
    · rw [if_pos hi, ← hi]
      split
      · exact coeff_X_pow_self n
      · exact coeff_zero n
    · rw [if_neg hi]
      split
      · rw [coeff_X_pow, if_neg hi]
      · exact coeff_zero n
  rw [toPoly, finsetSum_coeff]
  simp only [hterm]
  rw [Finset.sum_ite_eq]
  split
  case isTrue => rfl
  case isFalse hn =>
    rw [BitVec.getLsbD_of_ge x n (by simpa using hn)]
    rfl

/-- A polynomial with the coefficients of a vector. -/
theorem toPoly_eq_of_coeff {x : BitVec w} {p : (ZMod 2)[X]}
    (h : ∀ n, p.coeff n = if x.getLsbD n then 1 else 0) : toPoly x = p := by
  ext n
  rw [coeff_toPoly, h]

theorem toPoly_zero : toPoly (0 : BitVec w) = 0 := by
  apply toPoly_eq_of_coeff
  intro n
  simp

theorem toPoly_xor (x y : BitVec w) : toPoly (x ^^^ y) = toPoly x + toPoly y := by
  apply toPoly_eq_of_coeff
  intro n
  rw [coeff_add, coeff_toPoly, coeff_toPoly, BitVec.getLsbD_xor]
  cases x.getLsbD n <;> cases y.getLsbD n <;> decide

theorem toPoly_setWidth (x : BitVec w) (h : w ≤ v) : toPoly (x.setWidth v) = toPoly x := by
  apply toPoly_eq_of_coeff
  intro n
  rw [coeff_toPoly, BitVec.getLsbD_setWidth]
  by_cases hn : n < v
  · simp [hn]
  · simp [BitVec.getLsbD_of_ge x n (by omega)]

/-- A shift of a vector that has been widened enough to keep all its bits. -/
theorem toPoly_setWidth_shiftLeft (x : BitVec w) {i : Nat} (h : w + i ≤ v) :
    toPoly (x.setWidth v <<< i) = toPoly x * X ^ i := by
  apply toPoly_eq_of_coeff
  intro n
  rw [coeff_mul_X_pow', BitVec.getLsbD_shiftLeft, BitVec.getLsbD_setWidth, coeff_toPoly]
  by_cases hi : i ≤ n
  · rw [if_pos hi]
    by_cases hn : n < v
    · have hsub : n - i < v := by omega
      simp [hn, hsub, Nat.not_lt.mpr hi]
    · simp [hn, BitVec.getLsbD_of_ge x (n - i) (by omega)]
  · simp [hi, Nat.lt_of_not_le hi]

theorem toPoly_append (high : BitVec v) (low : BitVec w) :
    toPoly (high ++ low) = toPoly high * X ^ w + toPoly low := by
  apply toPoly_eq_of_coeff
  intro n
  rw [coeff_add, coeff_mul_X_pow', BitVec.getLsbD_append, coeff_toPoly, coeff_toPoly]
  by_cases hn : n < w
  · simp [hn, Nat.not_le.mpr hn]
  · simp [hn, Nat.le_of_not_lt hn]

theorem degree_toPoly_lt (x : BitVec w) : (toPoly x).degree < w := by
  rw [degree_lt_iff_coeff_zero]
  intro n hn
  rw [coeff_toPoly, BitVec.getLsbD_of_ge x n hn]
  rfl

/-- The carry-less product: the first factor, shifted to each bit of the second one. -/
theorem toPoly_foldl_shiftLeft (a : BitVec w) (b : BitVec w) (h : w + w ≤ v + 1) :
    toPoly ((List.range w).foldl
      (fun product i => if b.getLsbD i then product ^^^ a.setWidth v <<< i else product) (0 : BitVec v)) =
      toPoly a * toPoly b := by
  have hpartial : ∀ k ≤ w, toPoly ((List.range k).foldl
      (fun product i => if b.getLsbD i then product ^^^ a.setWidth v <<< i else product) (0 : BitVec v)) =
        toPoly a * ∑ i ∈ Finset.range k, if b.getLsbD i then X ^ i else 0 := by
    intro k hk
    induction k with
    | zero => exact toPoly_zero.trans (by rw [Finset.range_zero, Finset.sum_empty, mul_zero])
    | succ k ih =>
      rw [List.range_succ, List.foldl_append, List.foldl_cons, List.foldl_nil, Finset.sum_range_succ,
        mul_add, ← ih (by omega)]
      split
      · rw [toPoly_xor, toPoly_setWidth_shiftLeft a (by omega)]
      · rw [mul_zero, add_zero]
  exact hpartial w (Nat.le_refl w)

/-- The remainder by a monic polynomial, from a quotient and a vector shorter than its degree. -/
theorem modByMonic_eq_toPoly {p q a : (ZMod 2)[X]} (hp : p.Monic) (hdegree : p.natDegree = w)
    (x : BitVec w) (h : a = q * p + toPoly x) : a %ₘ p = toPoly x := by
  have hlt : (toPoly x).degree < p.degree := by
    rw [degree_eq_natDegree hp.ne_zero, hdegree]
    exact degree_toPoly_lt x
  exact (div_modByMonic_unique q (toPoly x) hp ⟨by rw [h, mul_comm q, add_comm], hlt⟩).2

end Gf2Poly
