import PrimoMiner.RandomxScan

/-!
# Monero targets

A pool sends its target as the top 4 or 8 bytes of the 256-bit boundary.  Four bytes are expanded through
the difficulty they stand for; the work then holds the 8 bytes with all words below them saturated, so
that its full comparison decides on the top 8 bytes of the hash alone.
-/

namespace PrimoMiner

/-- The number that bytes 24 to 31 of a hash spell, lowest byte first. -/
def topValue (hash : Buffer 32) : Nat := Nat.ofDigits 256 ((hash.bytes 24 8).map (·.toNat))

/-- What the expansion of a 32-bit target gives. -/
structure Expands (t32 : BitVec 32) (t64 : BitVec 64) : Prop where
  -- the two divisors
  target : t32 ≠ 0
  difficulty : (0xffffffff : BitVec 64) / t32.setWidth 64 ≠ 0
  sameDifficulty : (2 ^ 64 - 1) / t64.toNat = (2 ^ 32 - 1) / t32.toNat
  notHarder : t32.toNat ≤ (t64 >>> 32).toNat

/-! ## Truncating divisions -/

/-- A divisor up to the square root is recovered from its quotient. -/
theorem div_div_eq_self {n q : Nat} (hq : 0 < q) (hsq : q * q ≤ n) : n / (n / q) = q := by
  have hle : q ≤ n / q := (Nat.le_div_iff_mul_le hq).2 hsq
  have hmul : n / q * q ≤ n := Nat.div_mul_le_self n q
  have hmod : n < n / q * q + q := by
    have hdiv := Nat.div_add_mod n q
    have hlt := Nat.mod_lt n hq
    rw [Nat.mul_comm] at hdiv
    omega
  rw [Nat.div_eq_iff (by omega)]
  constructor
  · rw [Nat.mul_comm]
    exact hmul
  · rw [Nat.mul_comm]
    omega

/-- The expansion on numbers. -/
theorem toNat_expand (t32 : BitVec 32) :
    ((0xffffffffffffffff : BitVec 64) / (0xffffffff / t32.setWidth 64)).toNat =
      (2 ^ 64 - 1) / ((2 ^ 32 - 1) / t32.toNat) := by
  have hwidth : (t32.setWidth 64).toNat = t32.toNat :=
    BitVec.toNat_setWidth_of_le (by decide)
  rw [BitVec.toNat_udiv, BitVec.toNat_udiv, hwidth]
  rfl

theorem difficulty_pos {t32 : BitVec 32} (h : t32 ≠ 0) : 0 < (2 ^ 32 - 1) / t32.toNat := by
  have hlt := t32.isLt
  have hpos : 0 < t32.toNat := by
    rw [Nat.pos_iff_ne_zero]
    intro hzero
    exact h (BitVec.eq_of_toNat_eq hzero)
  exact Nat.div_pos (by omega) hpos

theorem expands {t32 : BitVec 32} (h : t32 ≠ 0) :
    Expands t32 (0xffffffffffffffff / (0xffffffff / t32.setWidth 64)) := by
  have hpos := difficulty_pos h
  have hle : (2 ^ 32 - 1) / t32.toNat ≤ 2 ^ 32 - 1 := Nat.div_le_self _ _
  refine ⟨h, ?_, ?_, ?_⟩
  · intro hzero
    have hnat := congrArg BitVec.toNat hzero
    rw [BitVec.toNat_udiv, BitVec.toNat_setWidth_of_le (by decide)] at hnat
    exact absurd hnat (Nat.pos_iff_ne_zero.1 hpos)
  · rw [toNat_expand]
    apply div_div_eq_self hpos
    have hsq := Nat.mul_le_mul hle hle
    omega
  · rw [BitVec.toNat_ushiftRight, Nat.shiftRight_eq_div_pow, toNat_expand, Nat.le_div_iff_mul_le (by decide),
      Nat.le_div_iff_mul_le hpos]
    have hdiv : t32.toNat * ((2 ^ 32 - 1) / t32.toNat) ≤ 2 ^ 32 - 1 := Nat.mul_div_le _ _
    calc t32.toNat * 2 ^ 32 * ((2 ^ 32 - 1) / t32.toNat)
        = t32.toNat * ((2 ^ 32 - 1) / t32.toNat) * 2 ^ 32 := by ring
      _ ≤ (2 ^ 32 - 1) * 2 ^ 32 := Nat.mul_le_mul_right _ hdiv
      _ ≤ 2 ^ 64 - 1 := by decide

theorem expand_mono {t32 t32' : BitVec 32} (h : t32 ≠ 0) (hle : t32.toNat ≤ t32'.toNat) :
    ((0xffffffffffffffff : BitVec 64) / (0xffffffff / t32.setWidth 64)).toNat ≤
      ((0xffffffffffffffff : BitVec 64) / (0xffffffff / t32'.setWidth 64)).toNat := by
  have hpos : 0 < t32.toNat := Nat.pos_of_ne_zero fun hzero => h (BitVec.eq_of_toNat_eq hzero)
  have h' : t32' ≠ 0 := by
    rintro rfl
    exact absurd (hpos.trans_le hle) (Nat.lt_irrefl 0)
  rw [toNat_expand, toNat_expand]
  exact Nat.div_le_div_left (Nat.div_le_div_left hle hpos) (difficulty_pos h')

/-! ## The comparison -/

theorem hashValue_split (hash : Buffer 32) : hashValue hash = lowValue hash 6 + 2 ^ 192 * topValue hash := by
  have hpow : 256 ^ 24 = 2 ^ 192 := by decide
  rw [hashValue, lowValue, lowValue, topValue, show 4 * 8 = 24 + 8 from rfl, Buffer.bytes_add, List.map_append,
    Nat.ofDigits_append, List.length_map, Buffer.bytes_length, hpow]

theorem toNat_expandTarget64 (t64 : BitVec 64) :
    (expandTarget64 t64).toNat = 2 ^ 192 * t64.toNat + (2 ^ 192 - 1) := by
  have hlow : (BitVec.allOnes 192).toNat < 2 ^ 192 := (BitVec.allOnes 192).isLt
  rw [expandTarget64, BitVec.toNat_append, Nat.shiftLeft_eq, ← Nat.shiftLeft_eq,
    ← Nat.shiftLeft_add_eq_or_of_lt hlow, Nat.shiftLeft_eq, BitVec.toNat_allOnes, Nat.mul_comm]

/-- The saturated words below the target never decide. -/
theorem hashValue_le_expandTarget64 (hash : Buffer 32) (t64 : BitVec 64) :
    hashValue hash ≤ (expandTarget64 t64).toNat ↔ topValue hash ≤ t64.toNat := by
  have hlow := lowValue_lt hash 6
  rw [hashValue_split, toNat_expandTarget64]
  constructor
  · intro h
    by_contra hgt
    have hmul := Nat.mul_le_mul_left (2 ^ 192) (show t64.toNat + 1 ≤ topValue hash by omega)
    rw [Nat.mul_succ] at hmul
    omega
  · intro h
    have hmul := Nat.mul_le_mul_left (2 ^ 192) h
    omega

/-- A byte is shifted in while there is room for it. -/
theorem toNat_shiftIn {t : BitVec 64} {v : Nat} (h : t.toNat = v) (hroom : v < 2 ^ 56) (b : Byte) :
    (t <<< 8 ||| b.setWidth 64).toNat = b.toNat + 256 * v := by
  have hb := b.isLt
  have hshift : t.toNat <<< 8 % 2 ^ 64 = t.toNat <<< 8 := by
    rw [Nat.shiftLeft_eq, h]
    exact Nat.mod_eq_of_lt (by omega)
  rw [BitVec.toNat_or, BitVec.toNat_shiftLeft, hshift, BitVec.toNat_setWidth_of_le (by decide),
    ← Nat.shiftLeft_add_eq_or_of_lt hb, Nat.shiftLeft_eq, h]
  omega

/-- Bytes that are shifted in from the top spell their number. -/
theorem toNat_foldl_shiftIn (bytes : List Byte) (h : bytes.length ≤ 8) :
    (bytes.reverse.foldl (fun (t : BitVec 64) b => t <<< 8 ||| b.setWidth 64) 0).toNat =
      Nat.ofDigits 256 (bytes.map (·.toNat)) := by
  induction bytes with
  | nil => rfl
  | cons b bytes ih =>
    rw [List.length_cons] at h
    have hvalue : Nat.ofDigits 256 (bytes.map (·.toNat)) < 256 ^ bytes.length := by
      rw [← List.length_map (·.toNat)]
      apply Nat.ofDigits_lt_base_pow_length (by decide)
      intro d hd
      obtain ⟨x, -, rfl⟩ := List.mem_map.1 hd
      exact x.isLt
    have hroom : (256 : Nat) ^ bytes.length ≤ 2 ^ 56 :=
      Nat.pow_le_pow_right (by decide) (show bytes.length ≤ 7 by omega)
    rw [List.reverse_cons, List.foldl_append, List.map_cons, Nat.ofDigits_cons]
    exact toNat_shiftIn (ih (by omega)) (hvalue.trans_le hroom) b

/-- Eight bytes are taken as the number they spell. -/
theorem toNat_le64dec (raw : Buffer 8) :
    (le64dec raw).toNat = Nat.ofDigits 256 ((raw.bytes 0 8).map (·.toNat)) := by
  have hfold := toNat_foldl_shiftIn (raw.bytes 0 8) (by rw [Buffer.bytes_length])
  rw [Buffer.bytes, ← List.map_reverse, List.foldl_map] at hfold
  simp only [Nat.zero_add] at hfold
  rw [le64dec, hfold, Buffer.bytes]
  simp only [Nat.zero_add]

/-- Every target of 8 or 16 digits and every hash: the expansion divides by no zero, keeps the
difficulty, is not harder than the target and is monotone in it; 16 digits are taken as they are; and
the work accepts a hash exactly when its top 8 bytes are at most the target. -/
theorem xmr_target_expansion :
    (∀ tstr raw, strlen tstr = 8 → stratumDecodeHexField 4 tstr = some raw → le32dec raw.byte ≠ 0 →
      ∃ t64, xmrTarget64 tstr = some t64 ∧ Expands (le32dec raw.byte) t64) ∧
    (∀ tstr tstr' raw raw' t64 t64', strlen tstr = 8 → strlen tstr' = 8 →
      stratumDecodeHexField 4 tstr = some raw → stratumDecodeHexField 4 tstr' = some raw' →
      xmrTarget64 tstr = some t64 → xmrTarget64 tstr' = some t64' →
      le32dec raw.byte ≤ le32dec raw'.byte → t64 ≤ t64') ∧
    (∀ tstr raw, strlen tstr = 16 → stratumDecodeHexField 8 tstr = some raw →
      Nat.ofDigits 256 ((raw.bytes 0 8).map (·.toNat)) ≠ 0 →
      ∃ t64, xmrTarget64 tstr = some t64 ∧ t64.toNat = Nat.ofDigits 256 ((raw.bytes 0 8).map (·.toNat))) ∧
    (∀ (ctx : SessionCtx) (hash : Buffer 32),
      rxHashLeTarget hash (buildXmrWork ctx).target = true ↔ topValue hash ≤ ctx.job.rxTarget64.toNat) := by
  refine ⟨?_, ?_, ?_, ?_⟩
  · intro tstr raw hlen hraw hne
    refine ⟨_, ?_, expands hne⟩
    rw [xmrTarget64, if_pos hlen, hraw]
    exact if_neg hne
  · intro tstr tstr' raw raw' t64 t64' hlen hlen' hraw hraw' ht ht' hle
    rw [xmrTarget64, if_pos hlen, hraw] at ht
    rw [xmrTarget64, if_pos hlen', hraw'] at ht'
    dsimp only at ht ht'
    split at ht
    · exact absurd ht (by simp)
    case isFalse hne =>
      split at ht'
      · exact absurd ht' (by simp)
      · rw [← Option.some.inj ht, ← Option.some.inj ht', BitVec.le_def]
        exact expand_mono hne (BitVec.le_def.1 hle)
  · intro tstr raw hlen hraw hne
    rw [← toNat_le64dec] at hne
    refine ⟨le64dec raw, ?_, toNat_le64dec raw⟩
    rw [xmrTarget64, if_neg (by omega), if_pos hlen, hraw]
    exact if_neg fun hzero => hne (by rw [hzero]; rfl)
  · intro ctx hash
    rw [rxHashLeTarget_iff]
    exact hashValue_le_expandTarget64 hash ctx.job.rxTarget64

end PrimoMiner
