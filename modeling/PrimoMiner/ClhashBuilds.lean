import PrimoMiner.Clhash

/-!
# The assembly build and the portable build

The helpers that have an assembly form compute the same in both forms, and the three loops of case
0x18 are one loop.
-/

namespace PrimoMiner

section builds
variable (mulhrs : Vec128 → Vec128 → Vec128) (build : ClhashBuild)

/-- A key can be added before the instruction. -/
theorem vaeseqU8_key (state key : Vec128) : vaeseqU8 state key = vaeseqU8 (state ^^^ key) 0 := by
  simp [vaeseqU8]

theorem aesRounds4Mix2XorNativeAsm_eq (temp1 temp2 : Vec128) (rk : ClKey) :
    aesRounds4Mix2XorNativeAsm build temp1 temp2 rk =
      (mix2EmuSimpleNative (aesRounds4Native (temp1, temp2) rk 0)).1 ^^^
        (mix2EmuSimpleNative (aesRounds4Native (temp1, temp2) rk 0)).2 := by
  unfold aesRounds4Mix2XorNativeAsm
  split
  · simp only [aesRounds4Native, mix2EmuSimpleNative, aesEncryptRoundNative, Nat.mul_zero,
      Nat.zero_add]
    rw [vaeseqU8_key _ (rk 0), vaeseqU8_key _ (rk 1)]
  · rfl

theorem vgetqLaneU64_dup (x : BitVec 64) : vgetqLaneU64 (vcombineU64 x x) 1 = x := by
  unfold vgetqLaneU64 lane vcombineU64
  exact BitVec.extractLsb'_append_eq_left

theorem case18ClmulMulhrsXorNativeAsm_eq (acc onekey temp : Vec128) :
    case18ClmulMulhrsXorNativeAsm mulhrs build acc onekey temp =
      case18ClmulMulhrsXorNativeAsm mulhrs clhashNoasm acc onekey temp := by
  unfold case18ClmulMulhrsXorNativeAsm
  split
  · simp only [clhashNoasm, clmulNative, vgetqLaneU64_dup, Bool.false_eq_true, if_false,
      BitVec.xor_comm acc]
  · rfl

theorem case18Round_eq (selector : BitVec 64) (divides : Bool) (selDiv selCl acc onekey : Vec128) :
    case18Round mulhrs build selector divides selDiv selCl acc onekey =
      case18Round mulhrs clhashNoasm selector divides selDiv selCl acc onekey := by
  unfold case18Round
  rw [case18ClmulMulhrsXorNativeAsm_eq]

/-! ## Case 0x18 -/

section loops
variable (selector : BitVec 64) (pbuf pbsf : Vec128) (key : ClKey)

/-- The tested loop does nothing once the rounds are used up. -/
theorem case18LoopFixedcount_eq {count n : Nat} (hn : n ≤ count) (rc : Nat) (acc onekey : Vec128) :
    case18LoopFixedcount mulhrs build selector pbuf pbsf key count rc (n - 1) acc onekey =
      case18LoopPlain mulhrs build selector pbuf pbsf key n rc acc onekey := by
  induction count generalizing n rc acc onekey with
  | zero =>
    obtain rfl : n = 0 := by omega
    rfl
  | succ count ih =>
    cases n with
    | zero =>
      rw [case18LoopFixedcount, if_neg (by simp)]
      exact ih (Nat.zero_le _) rc acc onekey
    | succ n =>
      rw [case18LoopFixedcount, if_pos (by omega), case18LoopPlain]
      have hround : ((n + 1 : Nat) : Int) - 1 = n := by omega
      have hodd : ((n : Int) % 2 = 1) = (n % 2 = 1) := by
        apply propext
        omega
      simp only [hround, hodd]
      exact ih (by omega) (rc + 1) _ _

/-- The pointers trade places from one round to the next. -/
theorem parity_swap {n : Nat} (hpos : 0 < n) (x y : Vec128) :
    (if n % 2 = 1 then x else y) = if (n - 1) % 2 = 1 then y else x := by
  by_cases hodd : n % 2 = 1
  · rw [if_pos hodd, if_neg (by omega)]
  · rw [if_neg hodd, if_pos (by omega)]

/-- The mask is the bit of the round, and the pointers follow its parity. -/
theorem case18LoopMaskPtrs_eq {count n : Nat} (hn : n ≤ count) (hlt : n ≤ 8) (rc : Nat)
    {mask : BitVec 64} {selDiv selCl : Vec128}
    (hmask : 0 < n → mask = 0x10000000 <<< (n - 1))
    (hdiv : 0 < n → selDiv = if (n - 1) % 2 = 1 then pbuf else pbsf)
    (hcl : 0 < n → selCl = if (n - 1) % 2 = 1 then pbsf else pbuf) (acc onekey : Vec128) :
    case18LoopMaskPtrs mulhrs build selector key count rc (n - 1) mask selDiv selCl acc onekey =
      case18LoopPlain mulhrs build selector pbuf pbsf key n rc acc onekey := by
  induction count generalizing n rc mask selDiv selCl acc onekey with
  | zero =>
    obtain rfl : n = 0 := by omega
    rfl
  | succ count ih =>
    cases n with
    | zero =>
      rw [case18LoopMaskPtrs, if_neg (by simp)]
      exact ih (Nat.zero_le _) (by omega) rc hmask hdiv hcl acc onekey
    | succ n =>
      rw [case18LoopMaskPtrs, if_pos (by omega), case18LoopPlain]
      have hround : ((n + 1 : Nat) : Int) - 1 = n := by omega
      have hbit : (selector &&& mask != 0) = roundBit selector n := by
        rw [hmask (Nat.succ_pos n)]
        rfl
      rw [hbit, hdiv (Nat.succ_pos n), hcl (Nat.succ_pos n)]
      simp only [hround, Nat.add_sub_cancel]
      refine ih (by omega) (by omega) (rc + 1) ?_ ?_ ?_ _ _
      · intro hpos
        obtain ⟨m, rfl⟩ : ∃ m, n = m + 1 := ⟨n - 1, by omega⟩
        -- no bit is lost at the top for so few rounds
        have hshift : ∀ m < 7, ((0x10000000 : BitVec 64) <<< (m + 1)) >>> 1 = 0x10000000 <<< m := by
          decide
        rw [hmask (Nat.succ_pos _)]
        exact hshift m (by omega)
      · exact fun hpos => parity_swap hpos pbsf pbuf
      · exact fun hpos => parity_swap hpos pbuf pbsf

theorem case18LoopPlain_eq (n rc : Nat) (acc onekey : Vec128) :
    case18LoopPlain mulhrs build selector pbuf pbsf key n rc acc onekey =
      case18LoopPlain mulhrs clhashNoasm selector pbuf pbsf key n rc acc onekey := by
  induction n generalizing rc acc onekey with
  | zero => rfl
  | succ n ih =>
    rw [case18LoopPlain, case18LoopPlain, case18Round_eq mulhrs build]
    exact ih _ _ _

/-- Up to eight rounds, all forms of the loop compute the same. -/
theorem case18InnerLoopNativeAsm_eq (acc : Vec128) (rc : Nat) {n : Nat} (hn : n + 1 ≤ 8) :
    case18InnerLoopNativeAsm mulhrs build acc key rc n selector pbuf pbsf =
      case18LoopPlain mulhrs clhashNoasm selector pbuf pbsf key (n + 1) rc acc 0 := by
  have hround : ((n + 1 : Nat) : Int) - 1 = n := by omega
  have hodd : ((n : Int) % 2 = 1) = (n % 2 = 1) := by
    apply propext
    omega
  have hstart : ((n : Int) + 1).toNat = n + 1 := by omega
  rw [← case18LoopPlain_eq mulhrs build]
  unfold case18InnerLoopNativeAsm
  split
  · split
    · have hloop := case18LoopMaskPtrs_eq mulhrs build selector pbuf pbsf key hn hn rc
        (fun _ => rfl) (fun _ => rfl) (fun _ => rfl) acc 0
      rw [hround] at hloop
      simp only [hodd]
      exact hloop
    · have hloop := case18LoopFixedcount_eq mulhrs build selector pbuf pbsf key hn rc acc 0
      rw [hround] at hloop
      exact hloop
  · rw [hstart]

end loops

end builds

end PrimoMiner
