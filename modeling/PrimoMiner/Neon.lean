import Mathlib.Data.BitVec
import PrimoMiner.Library.Lanes

/-!
# The vector instructions of the Verus path

A 128-bit register is a bit vector whose lane 0 stands in the low bits.  The intrinsics are given by
what the instructions do to the lanes.
-/

namespace PrimoMiner

/-- `uint64x2_t`, `uint8x16_t`, `int16x8_t`: one register, read in lanes of any width. -/
abbrev Vec128 := BitVec 128

/-- Lane `i` of the lanes of width `w`. -/
def lane (w : Nat) (v : Vec128) (i : Nat) : BitVec w := v.extractLsb' (w * i) w

/-- The register with lanes `f 0`, …, `f (n - 1)`. -/
def ofLanes {w : Nat} (n : Nat) (f : Nat → BitVec w) : Vec128 :=
  (List.range n).foldl (fun v i => v ||| (f i).setWidth 128 <<< (w * i)) 0

/-! ## Lanes -/

theorem getLsbD_lane (w : Nat) (v : Vec128) (i j : Nat) :
    (lane w v i).getLsbD j = (decide (j < w) && v.getLsbD (w * i + j)) :=
  BitVec.getLsbD_extractLsb' _ _ _ _

theorem getLsbD_ofLanes {w n : Nat} (f : Nat → BitVec w) (hn : w * n ≤ 128) (k : Nat) :
    (ofLanes n f).getLsbD k = (decide (k < w * n) && (f (k / w)).getLsbD (k % w)) := by
  induction n with
  | zero => simp [ofLanes]
  | succ n ih =>
    rw [Nat.mul_succ] at hn
    have hfold : ofLanes (n + 1) f = ofLanes n f ||| (f n).setWidth 128 <<< (w * n) := by
      rw [ofLanes, List.range_succ, List.foldl_append]
      rfl
    rw [hfold, BitVec.getLsbD_or, ih (by omega), BitVec.getLsbD_shiftLeft, BitVec.getLsbD_setWidth,
      Nat.mul_succ]
    rcases Nat.lt_or_ge k (w * n) with hlt | hge
    · have hlt' : k < w * n + w := by omega
      simp [hlt, hlt']
    · by_cases hend : k < w * n + w
      · have hdiv : k / w = n := by
          apply Nat.div_eq_of_lt_le
          · rwa [Nat.mul_comm]
          · rwa [Nat.succ_mul, Nat.mul_comm]
        have hmod : k % w = k - w * n := by rw [Nat.mod_eq_sub_mul_div, hdiv]
        have hwidth : k < 128 := by omega
        have hwidth' : k - w * n < 128 := by omega
        simp [Nat.not_lt.mpr hge, hend, hdiv, hmod, hwidth, hwidth']
      · have hout : w ≤ k - w * n := by omega
        simp [Nat.not_lt.mpr hge, hend, BitVec.getLsbD_of_ge _ _ hout]

/-- The lanes that a register is made of. -/
theorem lane_ofLanes {w n : Nat} (f : Nat → BitVec w) (hn : w * n ≤ 128) {i : Nat} (hi : i < n) :
    lane w (ofLanes n f) i = f i := by
  apply BitVec.eq_of_getLsbD_eq
  intro j hj
  have hlt : w * i + j < w * n := by
    have h := Nat.mul_le_mul_left w (show i + 1 ≤ n from hi)
    rw [Nat.mul_succ] at h
    omega
  have hdiv : (w * i + j) / w = i := by
    rw [Nat.mul_add_div (by omega), Nat.div_eq_of_lt hj, Nat.add_zero]
  have hmod : (w * i + j) % w = j := by rw [Nat.mul_add_mod, Nat.mod_eq_of_lt hj]
  rw [getLsbD_lane, getLsbD_ofLanes f hn, hdiv, hmod]
  simp [hj, hlt]

/-- Registers with the same words are the same. -/
theorem vec_ext {a b : Vec128} (h : ∀ i, i < 4 → lane 32 a i = lane 32 b i) : a = b := by
  apply BitVec.eq_of_getLsbD_eq
  intro k hk
  have hbit := congrArg (fun x => x.getLsbD (k % 32)) (h (k / 32) (by omega))
  simp only [getLsbD_lane, Nat.div_add_mod] at hbit
  simpa [Nat.mod_lt] using hbit
/-! ## Instructions -/

def vgetqLaneU64 (v : Vec128) (i : Nat) : BitVec 64 := lane 64 v i

def vcombineU64 (low high : BitVec 64) : Vec128 := high ++ low

/-- The product of polynomials over GF(2). -/
def vmullP64 (a b : BitVec 64) : Vec128 :=
  (List.range 64).foldl
    (fun product i => if b.getLsbD i then product ^^^ a.setWidth 128 <<< i else product) 0

/-- Signed saturating rounding doubling multiply, high half. -/
def sqrdmulh (a b : BitVec 16) : BitVec 16 :=
  BitVec.ofInt 16 (max (-2 ^ 15) (min (2 ^ 15 - 1) ((2 * a.toInt * b.toInt + 2 ^ 15) / 2 ^ 16)))

def vqrdmulhqS16 (a b : Vec128) : Vec128 := ofLanes 8 fun i => sqrdmulh (lane 16 a i) (lane 16 b i)

-- saturation is reached at the one product that does not fit
example : sqrdmulh 0x8000 0x8000 = 0x7fff ∧ sqrdmulh 0x4000 0x2000 = 0x1000 := by decide

def vzip1qU32 (a b : Vec128) : Vec128 :=
  ofLanes 4 fun i => if i % 2 = 0 then lane 32 a (i / 2) else lane 32 b (i / 2)

def vzip2qU32 (a b : Vec128) : Vec128 :=
  ofLanes 4 fun i => if i % 2 = 0 then lane 32 a (2 + i / 2) else lane 32 b (2 + i / 2)

/-- Bytes of `table` at the indices `idx`, 0 for an index that is out of range. -/
def vqtbl1qS8 (table idx : Vec128) : Vec128 :=
  ofLanes 16 fun i =>
    if (lane 8 idx i).toNat < 16 then lane 8 table (lane 8 idx i).toNat else 0

/-! ## AES -/

/-- Multiplication by `x` in GF(2^8) with the polynomial of AES. -/
def xtime (b : BitVec 8) : BitVec 8 := (b <<< 1) ^^^ (if b.getLsbD 7 then 0x1b else 0)

def gfMul (a b : BitVec 8) : BitVec 8 :=
  ((List.range 8).foldl (fun (s : BitVec 8 × BitVec 8) i =>
    (if b.getLsbD i then s.1 ^^^ s.2 else s.1, xtime s.2)) (0, a)).1

/-- `b ^ 254`, the inverse of a byte that is not 0. -/
def gfInv (b : BitVec 8) : BitVec 8 :=
  ((List.range 6).foldl (fun (s : BitVec 8 × BitVec 8) _ =>
    (gfMul s.1 (gfMul s.2 s.2), gfMul s.2 s.2)) (gfMul b b, gfMul b b)).1

def subByte (b : BitVec 8) : BitVec 8 :=
  let inv := gfInv b
  inv ^^^ inv.rotateLeft 1 ^^^ inv.rotateLeft 2 ^^^ inv.rotateLeft 3 ^^^ inv.rotateLeft 4 ^^^ 0x63

-- entries of the table in FIPS 197
example : subByte 0x00 = 0x63 ∧ subByte 0x53 = 0xed ∧ subByte 0xff = 0x16 := by decide

/-- Add the key, shift the rows of the column-major state and substitute its bytes. -/
def vaeseqU8 (state key : Vec128) : Vec128 :=
  ofLanes 16 fun i => subByte (lane 8 (state ^^^ key) (i % 4 + 4 * ((i / 4 + i % 4) % 4)))

/-- Mix the columns. -/
def vaesmcqU8 (state : Vec128) : Vec128 :=
  ofLanes 16 fun i =>
    let at4 := fun r => lane 8 state (4 * (i / 4) + (i % 4 + r) % 4)
    xtime (at4 0) ^^^ (xtime (at4 1) ^^^ at4 1) ^^^ at4 2 ^^^ at4 3

end PrimoMiner
