import PrimoMiner.TargetBounds

/-!
# Verus targets

`mining.set_target` keeps three bytes of the announced target that are not 0 and reads the rest as 0xff;
the work's target is made from the difficulty of that and has its low bytes filled with 0xff again.  A
target whose top byte is not 0 comes out below what was announced.  Any other is rounded up, and what it
lets through is at most the announced target with its low 28 bytes read as 0xff.
-/

namespace PrimoMiner

/-- The number that the bytes of `mining.set_target` spell, highest byte first. -/
def announcedTarget (targetBin : Buffer 32) : Nat := hashValue (.make fun i => targetBin.byte (31 - i))

/-- A number with its low `n` bits set. -/
def roundUp (n x : Nat) : Nat := x / 2 ^ n * 2 ^ n + (2 ^ n - 1)

/-! ## The value above the low bytes -/

theorem hashValue_div_224 (b : Buffer 32) : hashValue b / 2 ^ 224 = (word b 7).toNat := by
  have hlow := lowValue_lt b 7
  have hsplit := lowValue_succ b 7
  rw [hashValue, hsplit]
  omega

/-- The low 27 bytes, the 28th and the top word. -/
theorem hashValue_div_216 (b : Buffer 32) :
    hashValue b / 2 ^ 216 = (b.byte 27).toNat + 256 * (word b 7).toNat := by
  have hword : word b 6 = le32dec fun k => b.byte (24 + k) := rfl
  have hlow := lowValue_lt b 6
  have h6 := lowValue_succ b 6
  have h7 := lowValue_succ b 7
  rw [hword, toNat_le32dec] at h6
  have h0 := (b.byte 24).isLt
  have h1 := (b.byte 25).isLt
  have h2 := (b.byte 26).isLt
  rw [hashValue, h7, h6]
  norm_num at *
  omega

theorem word_announced_7 (targetBin : Buffer 32) :
    (word (.make fun i => targetBin.byte (31 - i) : Buffer 32) 7).toNat =
      (targetBin.byte 3).toNat + 256 * ((targetBin.byte 2).toNat + 256 * ((targetBin.byte 1).toNat +
        256 * (targetBin.byte 0).toNat)) := by
  rw [word, toNat_le32dec]
  simp [Buffer.byte_make]

/-! ## The mantissa -/

/-- The four bytes that the difficulty is made from. -/
def targetMantissa (tgt : Buffer 32) : Nat :=
  (tgt.byte 30).toNat * 2 ^ 24 + (tgt.byte 29).toNat * 2 ^ 16 + (tgt.byte 28).toNat * 2 ^ 8 + (tgt.byte 27).toNat

theorem targetMantissa_lt (tgt : Buffer 32) : targetMantissa tgt < 2 ^ 32 := by
  have h30 := (tgt.byte 30).isLt
  have h29 := (tgt.byte 29).isLt
  have h28 := (tgt.byte 28).isLt
  have h27 := (tgt.byte 27).isLt
  unfold targetMantissa
  omega

/-- What the loop of `mining.set_target` does for one byte. -/
def significantStep (targetBin : Buffer 32) (s : Buffer 32 × Nat) (i : Nat) : Buffer 32 × Nat :=
  if s.2 = 3 then s
  else (s.1.memset (31 - i) (targetBin.byte i) 1, if targetBin.byte i = 0 then s.2 else s.2 + 1)

theorem significantTarget_eq (targetBin : Buffer 32) :
    significantTarget targetBin =
      ((List.range 32).foldl (significantStep targetBin) (Buffer.zero.memset 0 0xff 32, 0)).1 := rfl

/-- A step touches one byte. -/
theorem significantStep_byte (targetBin : Buffer 32) (s : Buffer 32 × Nat) (i j : Nat) (hj : j ≠ 31 - i) :
    (significantStep targetBin s i).1.byte j = s.1.byte j := by
  unfold significantStep
  split
  · rfl
  · rw [Buffer.byte_memset, if_neg (by omega)]

theorem significantStep_self {targetBin : Buffer 32} {s : Buffer 32 × Nat} {i : Nat} (hs : s.2 ≠ 3) :
    (significantStep targetBin s i).1.byte (31 - i) = targetBin.byte i := by
  rw [significantStep, if_neg hs, Buffer.byte_memset, if_pos (by omega)]

theorem foldl_significantStep_byte (targetBin : Buffer 32) (l : List Nat) (s : Buffer 32 × Nat) (j : Nat)
    (hl : ∀ i ∈ l, j ≠ 31 - i) : (l.foldl (significantStep targetBin) s).1.byte j = s.1.byte j := by
  induction l generalizing s with
  | nil => rfl
  | cons i l ih =>
    rw [List.foldl_cons, ih _ fun i' hi' => hl i' (List.mem_cons_of_mem _ hi'),
      significantStep_byte targetBin s i j (hl i List.mem_cons_self)]

/-- With a top byte of 0, the next three bytes are kept. -/
theorem significantTarget_top {targetBin : Buffer 32} (htop : targetBin.byte 0 = 0) :
    (significantTarget targetBin).byte 30 = targetBin.byte 1 ∧
    (significantTarget targetBin).byte 29 = targetBin.byte 2 ∧
    (significantTarget targetBin).byte 28 = targetBin.byte 3 ∧
    (targetBin.byte 1 = 0 ∨ targetBin.byte 2 = 0 ∨ targetBin.byte 3 = 0 →
      (significantTarget targetBin).byte 27 = targetBin.byte 4) := by
  let s₀ : Buffer 32 × Nat := (Buffer.zero.memset 0 0xff 32, 0)
  let s₁ := significantStep targetBin s₀ 0
  let s₂ := significantStep targetBin s₁ 1
  let s₃ := significantStep targetBin s₂ 2
  let s₄ := significantStep targetBin s₃ 3
  let s₅ := significantStep targetBin s₄ 4
  have hrest : ∀ j, 27 ≤ j → (significantTarget targetBin).byte j = s₅.1.byte j := by
    intro j hj
    rw [significantTarget_eq, show List.range 32 = [0, 1, 2, 3, 4] ++ (List.range 27).map (5 + ·) by decide,
      List.foldl_append]
    apply foldl_significantStep_byte
    intro i hi
    obtain ⟨k, hk, rfl⟩ := List.mem_map.mp hi
    rw [List.mem_range] at hk
    omega
  have hcount : ∀ s i, s.2 ≠ 3 → (significantStep targetBin s i).2 =
      if targetBin.byte i = 0 then s.2 else s.2 + 1 := by
    intro s i hs
    rw [significantStep, if_neg hs]
  have hn₀ : s₀.2 = 0 := rfl
  have hn₁ : s₁.2 = 0 := by rw [hcount s₀ 0 (by omega), if_pos htop]
  have hn₂ : s₂.2 = if targetBin.byte 1 = 0 then s₁.2 else s₁.2 + 1 := hcount s₁ 1 (by omega)
  have hle₂ : s₂.2 ≤ 1 := by split at hn₂ <;> omega
  have hn₃ : s₃.2 = if targetBin.byte 2 = 0 then s₂.2 else s₂.2 + 1 := hcount s₂ 2 (by omega)
  have hle₃ : s₃.2 ≤ 2 := by split at hn₃ <;> omega
  have hn₄ : s₄.2 = if targetBin.byte 3 = 0 then s₃.2 else s₃.2 + 1 := hcount s₃ 3 (by omega)
  refine ⟨?_, ?_, ?_, ?_⟩
  · rw [hrest 30 (by omega), significantStep_byte _ _ 4 _ (by omega), significantStep_byte _ _ 3 _ (by omega),
      significantStep_byte _ _ 2 _ (by omega)]
    exact significantStep_self (by omega)
  · rw [hrest 29 (by omega), significantStep_byte _ _ 4 _ (by omega), significantStep_byte _ _ 3 _ (by omega)]
    exact significantStep_self (by omega)
  · rw [hrest 28 (by omega), significantStep_byte _ _ 4 _ (by omega)]
    exact significantStep_self (by omega)
  · intro hzero
    rw [hrest 27 (by omega)]
    apply significantStep_self
    obtain h | h | h := hzero
    · rw [if_pos h] at hn₂
      split at hn₃ <;> split at hn₄ <;> omega
    · rw [if_pos h] at hn₃
      split at hn₂ <;> split at hn₄ <;> omega
    · rw [if_pos h] at hn₄
      omega

/-! ## The work's target -/

/-- The bytes of `diff_to_target_verus` before the low ones are filled. -/
def targetPayload (offset value : Nat) : Buffer 32 :=
  (.zero : Buffer 32).memcpy offset (fun i => BitVec.ofNat 8 (value / 2 ^ (8 * i))) 8

/-- The difficulty of a mantissa `m` gives `m` back, one byte above or within the word it was read from. -/
theorem diffToTargetVerus_mantissa {m : Nat} (hpos : 0 < m) (hlt : m < 2 ^ 32) :
    diffToTargetVerus (0xffff0000 / m) =
      targetOf (fillLowBytes (if m < 0xffff0000 then targetPayload 24 (m * 2 ^ 24)
        else targetPayload 28 (m / 2 ^ 8))) := by
  have hm : (0 : ℚ) < m := by exact_mod_cast hpos
  have hm' : (m : ℚ) < 2 ^ 32 := by exact_mod_cast hlt
  have hd : (0 : ℚ) < 0xffff0000 / m := div_pos (by norm_num) hm
  have hdiff : diffToTargetVerus (0xffff0000 / m) =
      if compactWord (scaledDiff (0xffff0000 / m)) = 0 ∧ targetStart (0xffff0000 / m) = 6 then
        BitVec.allOnes 256
      else targetOf (fillLowBytes (targetPayload (4 * (targetStart (0xffff0000 / m) + 1))
        (compactWord (scaledDiff (0xffff0000 / m)) / 2 ^ 8))) := by
    rw [diffToTargetVerus, if_neg (not_le.mpr hd)]
    rfl
  have hcompact : ∀ {r : ℚ} {c : Nat}, 0 < r → c < 2 ^ 64 → compactValue r = c → compactWord r = c := by
    intro r c hr hc heq
    have hlt64 : compactValue r < 2 ^ 64 := by
      rw [heq]
      exact_mod_cast hc
    rw [compactWord_of_lt hr hlt64, heq, Int.floor_natCast, Int.toNat_natCast]
  rw [hdiff]
  by_cases hsmall : m < 0xffff0000
  · have hsmall' : (m : ℚ) < 4294901760 := by exact_mod_cast hsmall
    have habove : (1 : ℚ) < 0xffff0000 / m := by
      rw [lt_div_iff₀ hm]
      linarith
    have hbelow : ¬ (1 : ℚ) < 0xffff0000 / m / 2 ^ 32 := by
      rw [not_lt, div_le_one (by norm_num), div_le_iff₀ hm]
      have : (1 : ℚ) ≤ m := by exact_mod_cast hpos
      nlinarith
    have hscale : scaleDiff 6 (0xffff0000 / m : ℚ) = (5, (0xffff0000 / m / 2 ^ 32 : ℚ)) := by
      rw [scaleDiff, if_pos habove, scaleDiff, if_neg hbelow]
    have hword : compactWord (0xffff0000 / m / 2 ^ 32 : ℚ) = m * 2 ^ 32 := by
      apply hcompact (div_pos hd (by norm_num))
      · have := Nat.mul_lt_mul_of_pos_right hlt (show 0 < 2 ^ 32 by norm_num)
        norm_num at this ⊢
        omega
      · rw [compactValue]
        push_cast
        field_simp
        norm_num
    rw [if_pos hsmall, targetStart, scaledDiff, hscale]
    show (if compactWord (0xffff0000 / m / 2 ^ 32 : ℚ) = 0 ∧ 5 = 6 then _ else _) = _
    rw [if_neg (by omega), hword, show m * 2 ^ 32 / 2 ^ 8 = m * 2 ^ 24 by omega]
    rfl
  · have hbelow : ¬ (1 : ℚ) < 0xffff0000 / m := by
      rw [not_lt, div_le_one hm]
      exact_mod_cast Nat.not_lt.mp hsmall
    have hscale : scaleDiff 6 (0xffff0000 / m : ℚ) = (6, (0xffff0000 / m : ℚ)) := by
      rw [scaleDiff, if_neg hbelow]
    have hword : compactWord (0xffff0000 / m : ℚ) = m := by
      apply hcompact hd (by omega)
      rw [compactValue]
      field_simp
    rw [if_neg hsmall, targetStart, scaledDiff, hscale]
    show (if compactWord (0xffff0000 / m : ℚ) = 0 ∧ 6 = 6 then _ else _) = _
    rw [if_neg (by omega), hword]
    rfl

theorem targetPayload_byte {offset value i : Nat} (hlo : offset ≤ i) (hhi : i < offset + 8) (hi : i < 32) :
    ((targetPayload offset value).byte i).toNat = value / 2 ^ (8 * (i - offset)) % 256 := by
  rw [targetPayload, Buffer.byte_memcpy_of_mem hlo hhi hi, BitVec.toNat_ofNat]

/-- Where the fill stops. -/
theorem fillLowBytes_byte {b : Buffer 32} {i : Nat} (h : 28 ≤ i ∨ i ≤ 27 ∧ b.byte 27 ≠ 0 ∧ 27 ≤ i) :
    (fillLowBytes b).byte i = b.byte i := by
  have hzeros : ((List.range 28).takeWhile fun i => b.byte i == 0).length ≤ i := by
    obtain h | ⟨-, hne, hi⟩ := h
    · have hle := (List.takeWhile_prefix (fun i => b.byte i == 0) (l := List.range 28)).length_le
      rw [List.length_range] at hle
      omega
    · rw [show List.range 28 = List.range 27 ++ [27] from List.range_succ, List.takeWhile_append]
      split
      · rw [List.takeWhile_cons_of_neg (by simpa using hne), List.append_nil, List.length_range]
        exact hi
      · have hle := (List.takeWhile_prefix (fun i => b.byte i == 0) (l := List.range 27)).length_le
        rw [List.length_range] at hle
        omega
  rw [fillLowBytes, Buffer.byte_memset, if_neg (by omega)]

theorem word_fillLowBytes_7 (b : Buffer 32) : word (fillLowBytes b) 7 = word b 7 := by
  apply le32dec_congr
  intro k hk
  exact fillLowBytes_byte (.inl (by omega))

/-- The top word of the work's target is the mantissa without its low byte. -/
theorem word_payload_7 {m : Nat} (hlt : m < 2 ^ 32) :
    (word (if m < 0xffff0000 then targetPayload 24 (m * 2 ^ 24) else targetPayload 28 (m / 2 ^ 8)) 7).toNat =
      m / 2 ^ 8 := by
  have hbytes : ∀ k, k < 4 →
      ((if m < 0xffff0000 then targetPayload 24 (m * 2 ^ 24) else targetPayload 28 (m / 2 ^ 8)).byte
        (4 * 7 + k)).toNat = m / 2 ^ (8 * (k + 1)) % 256 := by
    intro k hk
    split
    · rw [targetPayload_byte (by omega) (by omega) (by omega)]
      congr 1
      interval_cases k <;> omega
    · rw [targetPayload_byte (by omega) (by omega) (by omega), Nat.div_div_eq_div_mul, ← Nat.pow_add]
      congr 3
      omega
  rw [word, toNat_le32dec, hbytes 0 (by omega), hbytes 1 (by omega), hbytes 2 (by omega), hbytes 3 (by omega)]
  norm_num
  omega

/-- Below the base, the low byte of the mantissa stands under the top word. -/
theorem byte_payload_27 (m : Nat) :
    ((targetPayload 24 (m * 2 ^ 24)).byte 27).toNat = m % 256 := by
  rw [targetPayload_byte (by omega) (by omega) (by omega)]
  congr 1
  omega

/-- A target that was accepted has a mantissa. -/
theorem verusStratumSetTarget_eq_some {params : Option Json} {targetHex : String} {targetBin : Buffer 32}
    {diff : ℚ} (hhex : Json.stringValue (Json.arrayGet params 0) = some targetHex)
    (hbin : stratumDecodeHexField 32 targetHex = some targetBin)
    (hset : verusStratumSetTarget params = some diff) :
    0 < targetMantissa (significantTarget targetBin) ∧
      diff = 0xffff0000 / (targetMantissa (significantTarget targetBin) : ℚ) := by
  have hdiff : targetToDiffEqui (significantTarget targetBin) =
      if targetMantissa (significantTarget targetBin) = 0 then 0
      else 0xffff0000 / (targetMantissa (significantTarget targetBin) : ℚ) := rfl
  unfold verusStratumSetTarget at hset
  simp only [hhex, hbin] at hset
  split at hset
  · exact absurd hset (by simp)
  · split at hset
    · exact absurd hset (by simp)
    · rename_i hpos
      rw [Option.some.injEq, hdiff] at hset
      rw [hdiff] at hpos
      split at hset
      case isTrue hzero => exact absurd (if_pos hzero).le hpos
      case isFalse hne => exact ⟨Nat.pos_of_ne_zero hne, hset.symm⟩

/-- What a Verus target lets through: nothing above the announced target if its top byte is not 0;
otherwise nothing above it with its low 28 bytes read as 0xff, or its low 27 where the fifth byte from the
top is one of the three that are kept. -/
theorem verus_target_rounded (params : Option Json) (targetHex : String) (targetBin : Buffer 32) (diff : ℚ)
    (hhex : Json.stringValue (Json.arrayGet params 0) = some targetHex)
    (hbin : stratumDecodeHexField 32 targetHex = some targetBin)
    (hset : verusStratumSetTarget params = some diff) (ctx : SessionCtx) (isVerus : Bool)
    (hjob : ctx.job.diff = diff) (hash : Buffer 32)
    (hhash : hashLeTarget hash (buildVerusWork ctx isVerus).target = true) :
    (targetBin.byte 0 ≠ 0 → hashValue hash ≤ announcedTarget targetBin) ∧
    (targetBin.byte 0 = 0 → hashValue hash ≤ roundUp 224 (announcedTarget targetBin)) ∧
    (targetBin.byte 0 = 0 → (targetBin.byte 1 = 0 ∨ targetBin.byte 2 = 0 ∨ targetBin.byte 3 = 0) →
      ¬ (targetBin.byte 1 = 0xff ∧ targetBin.byte 2 = 0xff) → targetBin.byte 4 ≠ 0 →
        hashValue hash ≤ roundUp 216 (announcedTarget targetBin)) := by
  obtain ⟨hpos, hdiff⟩ := verusStratumSetTarget_eq_some hhex hbin hset
  have hlt := targetMantissa_lt (significantTarget targetBin)
  generalize hm : targetMantissa (significantTarget targetBin) = m at *
  have htarget : (buildVerusWork ctx isVerus).target = diffToTargetVerus ctx.job.diff := rfl
  rw [hashLeTarget_iff, htarget, hjob, hdiff, diffToTargetVerus_mantissa hpos hlt, toNat_targetOf] at hhash
  generalize hb : (if m < 0xffff0000 then targetPayload 24 (m * 2 ^ 24) else targetPayload 28 (m / 2 ^ 8)) = b at *
  have hword : (word (fillLowBytes b) 7).toNat = m / 2 ^ 8 := by
    rw [word_fillLowBytes_7, ← hb, word_payload_7 hlt]
  have hdiv := hashValue_div_224 (fillLowBytes b)
  rw [hword] at hdiv
  have hannounced := hashValue_div_224 (.make fun i => targetBin.byte (31 - i))
  rw [word_announced_7] at hannounced
  have hannounced' : announcedTarget targetBin / 2 ^ 224 = _ := hannounced
  refine ⟨?_, ?_, ?_⟩
  · intro htop
    have hbyte : 1 ≤ (targetBin.byte 0).toNat := by
      by_contra hzero
      exact htop (BitVec.eq_of_toNat_eq (by simp; omega))
    omega
  · intro htop
    obtain ⟨h30, h29, h28, -⟩ := significantTarget_top htop
    have hmantissa : m / 2 ^ 8 = announcedTarget targetBin / 2 ^ 224 := by
      have h27 := ((significantTarget targetBin).byte 27).isLt
      rw [hannounced', ← hm, targetMantissa, h30, h29, h28, htop]
      simp
      omega
    rw [roundUp, ← hmantissa]
    omega
  · intro htop hzero hbase hkeep
    obtain ⟨h30, h29, h28, h27⟩ := significantTarget_top htop
    have hm' := hm
    rw [targetMantissa, h30, h29, h28, h27 hzero] at hm'
    have hlt1 := (targetBin.byte 1).isLt
    have hlt2 := (targetBin.byte 2).isLt
    have hlt3 := (targetBin.byte 3).isLt
    have hlt4 := (targetBin.byte 4).isLt
    have hsmall : m < 0xffff0000 := by
      by_contra hlarge
      exact hbase ⟨BitVec.eq_of_toNat_eq (by simp; omega), BitVec.eq_of_toNat_eq (by simp; omega)⟩
    have hlow : m % 256 = (targetBin.byte 4).toNat := by omega
    have hpayload : ((targetPayload 24 (m * 2 ^ 24)).byte 27).toNat = m % 256 := byte_payload_27 m
    rw [if_pos hsmall] at hb
    rw [hb] at hpayload
    have hstop : b.byte 27 ≠ 0 := by
      intro hz
      rw [hz, hlow] at hpayload
      exact hkeep (BitVec.eq_of_toNat_eq hpayload.symm)
    have hfill : (fillLowBytes b).byte 27 = b.byte 27 := fillLowBytes_byte (.inr ⟨Nat.le_refl _, hstop, Nat.le_refl _⟩)
    have hdiv' := hashValue_div_216 (fillLowBytes b)
    rw [hfill, hpayload, hword] at hdiv'
    have hdivAnnounced : announcedTarget targetBin / 2 ^ 216 = _ :=
      hashValue_div_216 (.make fun i => targetBin.byte (31 - i))
    rw [word_announced_7, Buffer.byte_make, if_pos (by omega), htop] at hdivAnnounced
    have hmantissa : announcedTarget targetBin / 2 ^ 216 = m := by
      rw [hdivAnnounced]
      simp
      omega
    rw [roundUp, hmantissa]
    omega

/-- The announcement `000102030000…`. -/
def shortTargetHex : String := "0001020300000000000000000000000000000000000000000000000000000000"

def shortTarget : Buffer 32 := .make (Buffer.source [0, 1, 2, 3])

/-- A hash just above it. -/
def looseHash : Buffer 32 := .make (Buffer.source (List.replicate 27 0 ++ [1, 3, 2, 1, 0]))

/-- The work's target lets a hash above the announced target through. -/
theorem verus_target_loosened :
    stratumDecodeHexField 32 shortTargetHex = some shortTarget ∧
      verusStratumSetTarget (some (.array [.string shortTargetHex])) = some (0xffff0000 / 0x010203ff) ∧
      hashLeTarget looseHash (diffToTargetVerus (0xffff0000 / 0x010203ff)) = true ∧
      announcedTarget shortTarget < hashValue looseHash := by
  decide +kernel

theorem verus_target_rounded_short :
    verusStratumSetTarget (some (.array [.string shortTargetHex])) = some (0xffff0000 / 0x010203ff) ∧
      hashValue looseHash ≤ roundUp 224 (announcedTarget shortTarget) := by
  have hset : verusStratumSetTarget (some (.array [.string shortTargetHex])) =
      some (0xffff0000 / 0x010203ff) := by decide +kernel
  refine ⟨hset, ?_⟩
  exact (verus_target_rounded (some (.array [.string shortTargetHex])) shortTargetHex shortTarget _ rfl
    (by decide) hset
    { pooln := 0, isVerusProtocol := true, job := { diff := 0xffff0000 / 0x010203ff } } true rfl looseHash
    (by decide +kernel)).2.1 (by decide)

end PrimoMiner
