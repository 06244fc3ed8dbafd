import Mathlib.Algebra.Order.Floor.Ring
import Mathlib.Data.Rat.Floor
import Mathlib.Tactic.Linarith
import PrimoMiner.HashTarget
import PrimoMiner.Notify

/-!
# Targets from difficulties

The target that `diff_to_target` writes for a positive difficulty `d` lies at most one unit of its lowest
word below `0xffff0000 * 2 ^ 192 / d`, unless the mantissa saturates, and never above it.  A harder
difficulty never has an easier target, also where the scaling loop moves to the next word.  Difficulties
are rationals here.
-/

namespace PrimoMiner

/-! ## Targets as numbers -/

theorem hashValue_words (b : Buffer 32) :
    hashValue b = (word b 0).toNat + 2 ^ 32 * (word b 1).toNat + 2 ^ 64 * (word b 2).toNat +
      2 ^ 96 * (word b 3).toNat + 2 ^ 128 * (word b 4).toNat + 2 ^ 160 * (word b 5).toNat +
      2 ^ 192 * (word b 6).toNat + 2 ^ 224 * (word b 7).toNat := by
  have hzero : lowValue b 0 = 0 := rfl
  simp only [hashValue, lowValue_succ, hzero, Nat.reduceMul, Nat.mul_zero, Nat.pow_zero, Nat.zero_add,
    Nat.one_mul]

theorem toNat_targetOf (b : Buffer 32) : (targetOf b).toNat = hashValue b := by
  suffices h : ∀ n, n ≤ 32 →
      ((List.range n).foldl (fun (t : BitVec 256) i => t ||| (b.byte i).setWidth 256 <<< (8 * i)) 0).toNat =
        Nat.ofDigits 256 ((b.bytes 0 n).map (·.toNat)) from h 32 (Nat.le_refl _)
  intro n hn
  induction n with
  | zero => rfl
  | succ n ih =>
    have hlow : Nat.ofDigits 256 ((b.bytes 0 n).map (·.toNat)) < 2 ^ (8 * n) := by
      have hlt := @Nat.ofDigits_lt_base_pow_length 256 ((b.bytes 0 n).map (·.toNat)) (by omega) (by
        intro x hx
        obtain ⟨y, -, rfl⟩ := List.mem_map.mp hx
        exact y.isLt)
      rw [List.length_map, Buffer.bytes_length, show (256 : Nat) = 2 ^ 8 from rfl, ← Nat.pow_mul] at hlt
      exact hlt
    have hbyte := (b.byte n).isLt
    have hpow : 2 ^ (8 * n) * 2 ^ 8 ≤ 2 ^ 256 := by
      rw [← Nat.pow_add]
      exact Nat.pow_le_pow_right (by omega) (by omega)
    have hwide : ((b.byte n).setWidth 256).toNat = (b.byte n).toNat := by
      rw [BitVec.toNat_setWidth, Nat.mod_eq_of_lt (show (b.byte n).toNat < 2 ^ 256 by omega)]
    have hshift : ((b.byte n).setWidth 256 <<< (8 * n)).toNat = (b.byte n).toNat <<< (8 * n) := by
      rw [BitVec.toNat_shiftLeft, hwide, Nat.shiftLeft_eq]
      apply Nat.mod_eq_of_lt
      have hmul := Nat.mul_lt_mul_of_pos_right hbyte (Nat.two_pow_pos (8 * n))
      rw [Nat.mul_comm (2 ^ 8)] at hmul
      omega
    rw [List.range_succ, List.foldl_append, List.foldl_cons, List.foldl_nil, BitVec.toNat_or, ih (by omega),
      hshift, Nat.or_comm, ← Nat.shiftLeft_add_eq_or_of_lt hlow, Buffer.bytes_add, List.map_append,
      Nat.ofDigits_append, List.length_map, Buffer.bytes_length, Nat.shiftLeft_eq]
    simp only [Buffer.bytes, List.range_one, List.map_cons, List.map_nil, Nat.ofDigits_cons,
      Nat.ofDigits_nil, Nat.mul_zero, Nat.add_zero, Nat.zero_add]
    rw [show (256 : Nat) = 2 ^ 8 from rfl, ← Nat.pow_mul, Nat.mul_comm, Nat.add_comm]

theorem word_zero (i : Nat) : word (.zero : Buffer 32) i = 0 := by
  simp [word, le32dec, Buffer.byte_zero]

/-- Two words in an empty target. -/
theorem hashValue_setWord_pair {w : Nat} (hw : w ≤ 6) (low high : BitVec 32) :
    hashValue (setWord (setWord .zero w low) (w + 1) high) =
      2 ^ (32 * w) * (low.toNat + 2 ^ 32 * high.toNat) := by
  have hword : ∀ i, i < 8 → (word (setWord (setWord .zero w low) (w + 1) high : Buffer 32) i).toNat =
      if i = w + 1 then high.toNat else if i = w then low.toNat else 0 := by
    intro i hi
    by_cases hhigh : i = w + 1
    · rw [if_pos hhigh, hhigh, word_setWord_self high (by omega)]
    · rw [if_neg hhigh, word_setWord_of_ne high hhigh]
      by_cases hlow : i = w
      · rw [if_pos hlow, hlow, word_setWord_self low (by omega)]
      · rw [if_neg hlow, word_setWord_of_ne low hlow, word_zero]
        rfl
  rw [hashValue_words, hword 0 (by omega), hword 1 (by omega), hword 2 (by omega), hword 3 (by omega),
    hword 4 (by omega), hword 5 (by omega), hword 6 (by omega), hword 7 (by omega)]
  interval_cases w <;> simp <;> omega

/-! ## The scaling loop -/

/-- What the loop leaves of a positive difficulty. -/
structure Scaled (n : Nat) (d : ℚ) (k : Nat) (r : ℚ) : Prop where
  le : k ≤ n
  pos : 0 < r
  eq : d * 2 ^ (32 * k) = r * 2 ^ (32 * n)
  -- it stops at a word above the lowest only with a difficulty of at most 1
  stop : 0 < k → r ≤ 1
  -- and goes on only with one above 1
  went : k < n → 1 < r * 2 ^ 32

theorem scaleDiff_spec (n : Nat) {d : ℚ} (hd : 0 < d) : Scaled n d (scaleDiff n d).1 (scaleDiff n d).2 := by
  induction n generalizing d with
  | zero => exact ⟨Nat.le_refl _, hd, rfl, fun h => absurd h (Nat.lt_irrefl _), fun h => absurd h (Nat.lt_irrefl _)⟩
  | succ n ih =>
    rw [scaleDiff]
    split
    case isTrue habove =>
      have h := ih (div_pos hd (by norm_num : (0 : ℚ) < 2 ^ 32))
      refine ⟨Nat.le_succ_of_le h.le, h.pos, ?_, h.stop, ?_⟩
      · rw [Nat.mul_succ, pow_add, ← mul_assoc, ← h.eq]
        field_simp
      · intro _
        by_cases hlt : (scaleDiff n (d / 2 ^ 32)).1 < n
        · exact h.went hlt
        · have heq := h.eq
          rw [show (scaleDiff n (d / 2 ^ 32)).1 = n from Nat.le_antisymm h.le (Nat.not_lt.mp hlt)] at heq
          have hr : d / 2 ^ 32 = (scaleDiff n (d / 2 ^ 32)).2 :=
            mul_right_cancel₀ (by positivity) heq
          rw [← hr, div_mul_cancel₀ _ (by norm_num)]
          exact habove
    case isFalse hle =>
      exact ⟨Nat.le_refl _, hd, rfl, fun _ => not_lt.mp hle, fun h => absurd h (Nat.lt_irrefl _)⟩

theorem scaleDiff_word_le (n : Nat) (d : ℚ) : (scaleDiff n d).1 ≤ n := by
  induction n generalizing d with
  | zero => exact Nat.le_refl _
  | succ n ih =>
    rw [scaleDiff]
    split
    · exact Nat.le_succ_of_le (ih _)
    · exact Nat.le_refl _

theorem scaleDiff_word_antitone (n : Nat) {d d' : ℚ} (h : d ≤ d') : (scaleDiff n d').1 ≤ (scaleDiff n d).1 := by
  induction n generalizing d d' with
  | zero => exact Nat.le_refl _
  | succ n ih =>
    by_cases habove : 1 < d
    · rw [scaleDiff, scaleDiff, if_pos habove, if_pos (lt_of_lt_of_le habove h)]
      exact ih (div_le_div_of_nonneg_right h (by norm_num))
    · have hstop : (scaleDiff (n + 1) d).1 = n + 1 := by rw [scaleDiff, if_neg habove]
      rw [hstop]
      exact scaleDiff_word_le (n + 1) d'

/-! ## The mantissa -/

/-- The quotient that is cast to the mantissa. -/
def compactValue (r : ℚ) : ℚ := 4294901760 / r

theorem compactValue_pos {r : ℚ} (h : 0 < r) : 0 < compactValue r := div_pos (by norm_num) h

theorem compactWord_of_lt {r : ℚ} (h : 0 < r) (hlt : compactValue r < 2 ^ 64) :
    compactWord r = ⌊compactValue r⌋.toNat :=
  if_neg (not_or.mpr ⟨ne_of_gt h, not_le.mpr hlt⟩)

theorem compactWord_of_le {r : ℚ} (hle : 2 ^ 64 ≤ compactValue r) : compactWord r = 2 ^ 64 - 1 :=
  if_pos (.inr hle)

theorem compactWord_lt {r : ℚ} (h : 0 < r) : compactWord r < 2 ^ 64 := by
  by_cases hlt : compactValue r < 2 ^ 64
  · rw [compactWord_of_lt h hlt]
    have hfloor : ⌊compactValue r⌋ < 2 ^ 64 := Int.floor_lt.mpr (by exact_mod_cast hlt)
    omega
  · rw [compactWord_of_le (not_lt.mp hlt)]
    omega

theorem compactWord_le {r : ℚ} (h : 0 < r) : (compactWord r : ℚ) ≤ compactValue r := by
  by_cases hlt : compactValue r < 2 ^ 64
  · rw [compactWord_of_lt h hlt]
    have hnonneg : 0 ≤ ⌊compactValue r⌋ := Int.floor_nonneg.mpr (compactValue_pos h).le
    have hcast : ((⌊compactValue r⌋.toNat : Nat) : ℚ) = ((⌊compactValue r⌋ : Int) : ℚ) := by
      exact_mod_cast congrArg (fun z : Int => (z : ℚ)) (Int.toNat_of_nonneg hnonneg)
    rw [hcast]
    exact Int.floor_le _
  · rw [compactWord_of_le (not_lt.mp hlt)]
    refine le_trans ?_ (not_lt.mp hlt)
    norm_num

theorem lt_compactWord_add_one {r : ℚ} (h : 0 < r) (hlt : compactValue r < 2 ^ 64) :
    compactValue r < compactWord r + 1 := by
  rw [compactWord_of_lt h hlt]
  have hnonneg : 0 ≤ ⌊compactValue r⌋ := Int.floor_nonneg.mpr (compactValue_pos h).le
  have hcast : ((⌊compactValue r⌋.toNat : Nat) : ℚ) = ((⌊compactValue r⌋ : Int) : ℚ) := by
    exact_mod_cast congrArg (fun z : Int => (z : ℚ)) (Int.toNat_of_nonneg hnonneg)
  rw [hcast]
  exact Int.lt_floor_add_one _

/-- A whole number that the quotient reaches, the mantissa reaches. -/
theorem le_compactWord {r : ℚ} (h : 0 < r) {m : Nat} (hm : m < 2 ^ 64) (hle : (m : ℚ) ≤ compactValue r) :
    m ≤ compactWord r := by
  by_cases hlt : compactValue r < 2 ^ 64
  · have hbelow := lt_of_le_of_lt hle (lt_compactWord_add_one h hlt)
    have : m < compactWord r + 1 := by exact_mod_cast hbelow
    omega
  · rw [compactWord_of_le (not_lt.mp hlt)]
    omega

/-- A difficulty of at most 1 leaves a mantissa with its 32 bits full. -/
theorem compactWord_of_le_one {r : ℚ} (h : 0 < r) (hle : r ≤ 1) : 4294901760 ≤ compactWord r := by
  apply le_compactWord h (by norm_num)
  rw [compactValue, le_div_iff₀ h]
  push_cast
  linarith

/-! ## `diff_to_target` -/

/-- The word the target starts at and the difficulty that is left. -/
def targetStart (d : ℚ) : Nat := (scaleDiff 6 d).1

def scaledDiff (d : ℚ) : ℚ := (scaleDiff 6 d).2

theorem scaled (d : ℚ) (hd : 0 < d) : Scaled 6 d (targetStart d) (scaledDiff d) := scaleDiff_spec 6 hd

/-- The exact target of a difficulty. -/
def exactTarget (d : ℚ) : ℚ := 0xffff0000 * 2 ^ 192 / d

theorem exactTarget_eq {d : ℚ} (hd : 0 < d) :
    exactTarget d = compactValue (scaledDiff d) * 2 ^ (32 * targetStart d) := by
  have h := scaled d hd
  have hr := ne_of_gt h.pos
  rw [exactTarget, compactValue, div_mul_eq_mul_div, div_eq_div_iff (ne_of_gt hd) hr]
  have heq := h.eq
  calc (0xffff0000 * 2 ^ 192 : ℚ) * scaledDiff d
      = 4294901760 * (scaledDiff d * 2 ^ (32 * 6)) := by norm_num; ring
    _ = 4294901760 * (d * 2 ^ (32 * targetStart d)) := by rw [← heq]
    _ = 4294901760 * 2 ^ (32 * targetStart d) * d := by ring

theorem toNat_diffToTarget {d : ℚ} (hd : 0 < d) :
    (diffToTarget d).toNat = 2 ^ (32 * targetStart d) * compactWord (scaledDiff d) := by
  have h := scaled d hd
  have hlt := compactWord_lt h.pos
  have hfull : ¬ (compactWord (scaledDiff d) = 0 ∧ targetStart d = 6) := by
    rintro ⟨hzero, hsix⟩
    have hmin := compactWord_of_le_one h.pos (h.stop (by omega))
    omega
  show (if compactWord (scaledDiff d) = 0 ∧ targetStart d = 6 then BitVec.allOnes 256
    else targetOf (setWord (setWord (.zero : Buffer 32) (targetStart d)
      (BitVec.ofNat 32 (compactWord (scaledDiff d)))) (targetStart d + 1)
      (BitVec.ofNat 32 (compactWord (scaledDiff d) / 2 ^ 32)))).toNat = _
  rw [if_neg hfull, toNat_targetOf, hashValue_setWord_pair h.le, BitVec.toNat_ofNat, BitVec.toNat_ofNat]
  congr 1
  omega

/-- The target is at most the exact one. -/
theorem diffToTarget_le {d : ℚ} (hd : 0 < d) : ((diffToTarget d).toNat : ℚ) ≤ exactTarget d := by
  rw [toNat_diffToTarget hd, exactTarget_eq hd]
  push_cast
  rw [mul_comm]
  exact mul_le_mul_of_nonneg_right (compactWord_le (scaled d hd).pos) (by positivity)

/-- It is less than a unit of its lowest word below, unless the mantissa saturates. -/
theorem exactTarget_lt {d : ℚ} (hd : 0 < d) (hsat : compactValue (scaledDiff d) < 2 ^ 64) :
    exactTarget d < (diffToTarget d).toNat + 2 ^ (32 * targetStart d) := by
  rw [toNat_diffToTarget hd, exactTarget_eq hd]
  push_cast
  have hlt := lt_compactWord_add_one (scaled d hd).pos hsat
  have hpos : (0 : ℚ) < 2 ^ (32 * targetStart d) := by positivity
  nlinarith

/-- A harder difficulty has no easier target. -/
theorem diffToTarget_antitone {d d' : ℚ} (hd : 0 < d) (hle : d ≤ d') :
    (diffToTarget d').toNat ≤ (diffToTarget d).toNat := by
  have hd' : 0 < d' := lt_of_lt_of_le hd hle
  have h := scaled d hd
  have h' := scaled d' hd'
  have hword : targetStart d' ≤ targetStart d := scaleDiff_word_antitone 6 hle
  obtain heq | hlt := Nat.eq_or_lt_of_le hword
  · -- the same word: the mantissas are in order
    rw [toNat_diffToTarget hd, toNat_diffToTarget hd', heq]
    apply Nat.mul_le_mul_left
    apply le_compactWord h.pos (compactWord_lt h'.pos)
    refine le_trans (compactWord_le h'.pos) ?_
    have hr : scaledDiff d ≤ scaledDiff d' := by
      have e := h.eq
      have e' := h'.eq
      rw [heq] at e'
      have hpow : (0 : ℚ) < 2 ^ (32 * targetStart d) := by positivity
      have hmul := mul_le_mul_of_nonneg_right hle hpow.le
      rw [e, e'] at hmul
      exact le_of_mul_le_mul_right hmul (by positivity)
    exact div_le_div_of_nonneg_left (by norm_num) h.pos hr
  · -- the loop went past the word of `d`, where the exact target of `d'` is below a full mantissa
    have hfull := compactWord_of_le_one h.pos (h.stop (by omega))
    have hwent := h'.went (lt_of_lt_of_le hlt h.le)
    have hbelow : exactTarget d' < 4294901760 * 2 ^ (32 * targetStart d) := by
      rw [exactTarget_eq hd', compactValue, div_mul_eq_mul_div, div_lt_iff₀ h'.pos]
      have hstep : (2 : ℚ) ^ (32 * targetStart d') * 2 ^ 32 ≤ 2 ^ (32 * targetStart d) := by
        rw [← pow_add]
        exact pow_le_pow_right₀ (by norm_num) (by omega)
      have hpos : (0 : ℚ) < 2 ^ (32 * targetStart d') := by positivity
      have hr := h'.pos
      nlinarith [mul_lt_mul_of_pos_left hwent hpos, mul_le_mul_of_nonneg_right hstep hr.le]
    have hle' := diffToTarget_le hd'
    have hmin : 4294901760 * 2 ^ (32 * targetStart d) ≤ (diffToTarget d).toNat := by
      rw [toNat_diffToTarget hd, Nat.mul_comm]
      exact Nat.mul_le_mul_left _ hfull
    have hmin' : (4294901760 * 2 ^ (32 * targetStart d) : ℚ) ≤ (diffToTarget d).toNat := by
      exact_mod_cast hmin
    have hfinal : ((diffToTarget d').toNat : ℚ) ≤ (diffToTarget d).toNat := by linarith
    exact_mod_cast hfinal

/-! ## Casts and stores -/

/-- The cast to `uint64_t`, which has no result out of range. -/
def castUint64 (x : ℚ) : Option Nat := if 0 ≤ x ∧ x < 2 ^ 64 then some ⌊x⌋.toNat else none

/-- The clamp in front of the cast. -/
def castCompact (x : ℚ) : Option Nat := if 2 ^ 64 ≤ x then some (2 ^ 64 - 1) else castUint64 x

/-- A store to a word of the target, which has no result outside it. -/
def storeTargetWord (target : Buffer 32) (i : Nat) (x : BitVec 32) : Option (Buffer 32) :=
  if i < 8 then some (setWord target i x) else none

/-- `diff_to_target` with its cast and its stores checked. -/
def diffToTargetChecked (diff : ℚ) : Option (BitVec 256) := do
  let (targetWord, remainingDiff) := scaleDiff 6 diff
  let compact ← castCompact (4294901760 / remainingDiff)
  if compact = 0 ∧ targetWord = 6 then some (BitVec.allOnes 256)
  else
    let target ← storeTargetWord .zero targetWord (BitVec.ofNat 32 compact)
    let target ← storeTargetWord target (targetWord + 1) (BitVec.ofNat 32 (compact / 2 ^ 32))
    some (targetOf target)

theorem diffToTargetChecked_eq {d : ℚ} (hd : 0 < d) : diffToTargetChecked d = some (diffToTarget d) := by
  have h := scaled d hd
  have hcast : castCompact (4294901760 / scaledDiff d) = some (compactWord (scaledDiff d)) := by
    by_cases hsat : 2 ^ 64 ≤ compactValue (scaledDiff d)
    · rw [compactWord_of_le hsat]
      exact if_pos hsat
    · have hlt := not_le.mp hsat
      rw [compactWord_of_lt h.pos hlt]
      exact (if_neg hsat).trans (if_pos ⟨(compactValue_pos h.pos).le, hlt⟩)
  have hlow : targetStart d < 8 := by have := h.le; omega
  have hhigh : targetStart d + 1 < 8 := by have := h.le; omega
  show (castCompact (4294901760 / scaledDiff d)).bind _ = _
  rw [hcast]
  show (if compactWord (scaledDiff d) = 0 ∧ targetStart d = 6 then some (BitVec.allOnes 256)
    else (storeTargetWord .zero (targetStart d) _).bind fun target =>
      (storeTargetWord target (targetStart d + 1) _).bind fun target => some (targetOf target)) =
    some (if compactWord (scaledDiff d) = 0 ∧ targetStart d = 6 then BitVec.allOnes 256 else _)
  rw [storeTargetWord, if_pos hlow]
  split
  · rfl
  · show (storeTargetWord _ (targetStart d + 1) _).bind _ = _
    rw [storeTargetWord, if_pos hhigh]
    rfl

/-- The target of a positive difficulty: no cast or store out of range, never above the exact target, less
than a unit of its lowest word below it unless the mantissa saturates, and antitone.  The works of the
standard algorithms have it for the job's difficulty, scrypt for a 65536th of it. -/
theorem diff_to_target_bounds (d : ℚ) (hd : 0 < d) :
    diffToTargetChecked d = some (diffToTarget d) ∧
    ((diffToTarget d).toNat : ℚ) ≤ 0xffff0000 * 2 ^ 192 / d ∧
    (compactValue (scaledDiff d) < 2 ^ 64 →
      0xffff0000 * 2 ^ 192 / d - (diffToTarget d).toNat < 2 ^ (32 * targetStart d)) ∧
    (∀ d', d ≤ d' → (diffToTarget d').toNat ≤ (diffToTarget d).toNat) ∧
    (∀ (sha256d : Sha256d) (algo : Algo) (ctx : SessionCtx), ctx.job.diff = d →
      (buildStandardWork sha256d algo ctx).target = diffToTarget (if algo = .scrypt then d / 65536 else d) ∧
      ((buildStandardWork sha256d algo ctx).target.toNat : ℚ) ≤
        0xffff0000 * 2 ^ 192 / (if algo = .scrypt then d / 65536 else d)) := by
  refine ⟨diffToTargetChecked_eq hd, diffToTarget_le hd, ?_, ?_, ?_⟩
  · intro hsat
    have hlt := exactTarget_lt hd hsat
    rw [exactTarget] at hlt
    linarith
  · intro d' hle
    exact diffToTarget_antitone hd hle
  · intro sha256d algo ctx hdiff
    have hpos : 0 < (if algo = .scrypt then d / 65536 else d) := by
      split
      · exact div_pos hd (by norm_num)
      · exact hd
    have htarget : (buildStandardWork sha256d algo ctx).target =
        diffToTarget (if algo = .scrypt then d / 65536 else d) := by
      rw [← hdiff]
      rfl
    rw [htarget]
    exact ⟨rfl, diffToTarget_le hpos⟩

/-- Difficulty `3 * 2 ^ 40`: the loop has moved by two words, the target is exact but for its fraction, and
that of `2 ^ 42` is harder. -/
theorem diff_to_target_bounds_scaled :
    diffToTargetChecked (3 * 2 ^ 40) = some (diffToTarget (3 * 2 ^ 40)) ∧
      ((diffToTarget (3 * 2 ^ 40)).toNat : ℚ) ≤ 0xffff0000 * 2 ^ 192 / (3 * 2 ^ 40) ∧
      0xffff0000 * 2 ^ 192 / (3 * 2 ^ 40) - (diffToTarget (3 * 2 ^ 40)).toNat < (2 : ℚ) ^ (32 * 4) ∧
      (diffToTarget (2 ^ 42)).toNat ≤ (diffToTarget (3 * 2 ^ 40)).toNat ∧
      (diffToTarget (3 * 2 ^ 40)).toNat = 0xffff0000 * 2 ^ 152 / 3 := by
  have hstart : targetStart (3 * 2 ^ 40) = 4 := by decide +kernel
  obtain ⟨hchecked, hle, hshort, hanti, -⟩ := diff_to_target_bounds (3 * 2 ^ 40) (by norm_num)
  rw [hstart] at hshort
  exact ⟨hchecked, hle, hshort (by decide +kernel), hanti _ (by norm_num), by decide +kernel⟩

end PrimoMiner
