import Mathlib.Data.Nat.Digits.Defs
import PrimoMiner.StandardScan

/-!
# Hashes against targets

`hash_le_target` compares a hash with a target word by word from the top.  This is the comparison of the
hash, read as a little-endian number, with the target, so the test of word 7 that comes before it rejects
nothing that it would accept.
-/

namespace PrimoMiner

/-- The number that the first `4 * k` bytes of a hash spell, lowest byte first. -/
def lowValue (hash : Buffer 32) (k : Nat) : Nat := Nat.ofDigits 256 ((hash.bytes 0 (4 * k)).map (·.toNat))

/-- A hash as a little-endian number of 256 bits. -/
def hashValue (hash : Buffer 32) : Nat := lowValue hash 8

theorem toNat_le32dec (p : Nat → Byte) :
    (le32dec p).toNat = (p 0).toNat + 256 * ((p 1).toNat + 256 * ((p 2).toNat + 256 * (p 3).toNat)) := by
  have hbyte : ∀ k, k < 4 → (p k).toNat = (le32dec p).toNat / 2 ^ (8 * k) % 256 := by
    intro k hk
    rw [← byte_le32dec p hk, BitVec.toNat_setWidth, BitVec.toNat_ushiftRight, Nat.shiftRight_eq_div_pow]
  have hlt := (le32dec p).isLt
  rw [hbyte 0 (by omega), hbyte 1 (by omega), hbyte 2 (by omega), hbyte 3 (by omega)]
  omega

theorem lowValue_succ (hash : Buffer 32) (k : Nat) :
    lowValue hash (k + 1) = lowValue hash k + 2 ^ (32 * k) * (word hash k).toNat := by
  have hpow : 256 ^ (4 * k) = 2 ^ (32 * k) := by
    rw [show 256 = 2 ^ 8 from rfl, ← Nat.pow_mul]
    congr 1
    omega
  have hword : Nat.ofDigits 256 ((hash.bytes (0 + 4 * k) 4).map (·.toNat)) = (word hash k).toNat := by
    rw [word, toNat_le32dec, Nat.zero_add]
    simp only [Buffer.bytes, show List.range 4 = [0, 1, 2, 3] from rfl, List.map_cons, List.map_nil,
      Nat.ofDigits_cons, Nat.ofDigits_nil, Nat.mul_zero, Nat.add_zero]
  rw [lowValue, Nat.mul_succ, Buffer.bytes_add, List.map_append, Nat.ofDigits_append, List.length_map,
    Buffer.bytes_length, hpow, hword, lowValue]

theorem lowValue_lt (hash : Buffer 32) (k : Nat) : lowValue hash k < 2 ^ (32 * k) := by
  induction k with
  | zero => exact Nat.one_pos
  | succ k ih =>
    have hword := Nat.mul_le_mul_left (2 ^ (32 * k)) (Nat.succ_le_of_lt (word hash k).isLt)
    rw [Nat.mul_succ, ← Nat.pow_add] at hword
    rw [lowValue_succ, Nat.mul_succ]
    omega

/-- The target's words from the bottom up. -/
theorem target_mod_succ (target : BitVec 256) (k : Nat) :
    target.toNat % 2 ^ (32 * (k + 1)) =
      target.toNat % 2 ^ (32 * k) + 2 ^ (32 * k) * (targetWord target k).toNat := by
  rw [targetWord, BitVec.toNat_setWidth, BitVec.toNat_ushiftRight, Nat.shiftRight_eq_div_pow, Nat.mul_succ,
    Nat.pow_add, Nat.mod_mul]

/-- The comparison from word `k - 1` down is that of the numbers of `k` words. -/
theorem hashLeTargetFrom_iff (hash : Buffer 32) (target : BitVec 256) (k : Nat) :
    hashLeTargetFrom hash target k = true ↔ lowValue hash k ≤ target.toNat % 2 ^ (32 * k) := by
  induction k with
  | zero => simp [hashLeTargetFrom, lowValue, Buffer.bytes]
  | succ k ih =>
    have hlow := lowValue_lt hash k
    have hmod := Nat.mod_lt target.toNat (Nat.two_pow_pos (32 * k))
    rw [hashLeTargetFrom, lowValue_succ, target_mod_succ]
    split
    case isTrue hgt =>
      have hmul := Nat.mul_le_mul_left (2 ^ (32 * k)) (Nat.succ_le_of_lt (BitVec.lt_def.mp hgt))
      rw [Nat.mul_succ] at hmul
      simp only [Bool.false_eq_true, false_iff]
      omega
    case isFalse hle =>
      split
      case isTrue hlt =>
        have hmul := Nat.mul_le_mul_left (2 ^ (32 * k)) (Nat.succ_le_of_lt (BitVec.lt_def.mp hlt))
        rw [Nat.mul_succ] at hmul
        simp only [true_iff]
        omega
      case isFalse hge =>
        have heq : word hash k = targetWord target k := by
          rw [BitVec.lt_def] at hle hge
          exact BitVec.eq_of_toNat_eq (by omega)
        rw [ih, heq]
        omega

theorem hashLeTarget_iff (hash : Buffer 32) (target : BitVec 256) :
    hashLeTarget hash target = true ↔ hashValue hash ≤ target.toNat := by
  have htarget : target.toNat % 2 ^ (32 * 8) = target.toNat := Nat.mod_eq_of_lt target.isLt
  rw [hashLeTarget, hashLeTargetFrom_iff, htarget, hashValue]

/-- The test of word 7 rejects no hash that the full comparison accepts. -/
theorem word7_le_of_hashLeTarget {hash : Buffer 32} {target : BitVec 256}
    (h : hashLeTarget hash target = true) : word hash 7 ≤ targetWord target 7 := by
  rw [hashLeTarget, hashLeTargetFrom] at h
  split at h
  · exact absurd h (by simp)
  case isFalse hle => exact BitVec.not_lt.mp hle

end PrimoMiner
