import Mathlib.Data.Fin.VecNotation
import PrimoMiner.Bytes
import PrimoMiner.Clhash

/-!
# Haraka

The Haraka permutations of `haraka_native.c` on blocks of 32 and 64 bytes.  `haraka512_keyed_native`
computes word 7 of the hash only, without the parts of the last two rounds that do not reach it.  The
functions on 64 bytes are defined over any AES round and both forms of the mixing network; the registers
`s` and `n` are kept apart as in the source, for the lane-copy form writes each lane of a register that has
other contents before, and `n` has any contents at the start.
-/

namespace PrimoMiner

/-- `haraka_rc`, each constant as the register that `load_constants_native` loads. -/
def harakaRc : List Vec128 :=
  [0x0684704ce620c00ab2c5fef075817b9d,
   0x8b66b4e188f3a06b640f6ba42f08f717,
   0x3402de2d53f28498cf029d609f029114,
   0x0ed6eae62e7b4f08bbf3bcaffd5b4f79,
   0xcbcfb0cb4872448b79eecd1cbe397044,
   0x7eeacdee6e9032b78d5335ed2b8a057b,
   0x67c28f435e2e7cd0e2412761da4fef1b,
   0x2924d9b0afcacc07675ffde21fc70b3b,
   0xab4d63f1e6867fe9ecdb8fcab9d465ee,
   0x1c30bf84d4b7cd645b2a404fad037e33,
   0xb2cc0bb9941723bf69028b2e8df69800,
   0xfa0478a6de6f55724aaa9ec85c9d2d8a,
   0xdfb49f2b6b772a120efa4f2e29129fd4,
   0x1ea10344f449a23632d611aebb6a12ee,
   0xaf0449884b0500845f9600c99ca8eca6,
   0x21025ed89d199c4f78a2c7e327e593ec,
   0xbf3aaaf8a759c9b7b9282ecd82d40173,
   0x6260700d6186b01737f2efd910307d6b,
   0x5aca45c22130044381c29153f6fc9ac6,
   0x9223973c226b68bb2caf92e836d1943a,
   0xd3bf9238225886eb6cbab958e51071b4,
   0xdb863ce5aef0c677933dfddd24e1128d,
   0xbb606268ffeba09c83e48de3cb2212b1,
   0x734bd3dce2e4d19c2db91a4ec72bf77d,
   0x43bb47c361301b434b1415c42cb3924e,
   0xdba775a8e707eff603b231dd16eb6899,
   0x6df3614b3c7559778e5e23027eca472c,
   0xcda75a17d6de7d776d1be5b9b88617f9,
   0xec6b43f06ba8e9aa9d6c069da946ee5d,
   0xcb1e6950f957332ba25311593bf327c1,
   0x2cee0c7500da619ce4ed0353600ed0d9,
   0xf0b1a5a196e90cab80bbbabc63a4a350,
   0xae3db1025e962988ab0dde30938dca39,
   0x17bb8f38d554a40b8814f3a82e75b442,
   0x34bb8a5b5f427fd7aeb6b779360a16f6,
   0x26f65241cbe5543843ce5918ffbaafde,
   0x4ce99a54b9f3026aa2ca9cf7839ec978,
   0xae51a51a1bdff7be40c06e2822901235,
   0xa0c1613cba7ed22bc173bc0f48a659cf,
   0x756acc03022882884ad6bdfde9c59da1]

/-- `rc_native` -/
def rcNative (i : Nat) : Vec128 := harakaRc.getD i 0

def vld1qU8 (p : Nat → Byte) : Vec128 := ofLanes 16 p

/-- The four registers of a 64-byte state. -/
abbrev State512 := Fin 4 → Vec128

def load512 (input : Buffer 64) : State512 := fun i => vld1qU8 fun k => input.byte (16 * i + k)

/-- `vst1q_u8` of the registers, one after the other. -/
def store512 (s : State512) : Buffer 64 :=
  .make fun i => lane 8 (s (Fin.ofNat 4 (i / 16))) (i % 16)

/-! ## The mixing network -/

def mix4Native (s : State512) : State512 :=
  let tmp := vzip1qU32 (s 0) (s 1)
  let s0 := vzip2qU32 (s 0) (s 1)
  let s1 := vzip1qU32 (s 2) (s 3)
  let s2 := vzip2qU32 (s 2) (s 3)
  ![vzip2qU32 s0 s2, vzip1qU32 s1 tmp, vzip2qU32 s1 tmp, vzip1qU32 s0 s2]

/-- `PRIMO_HARAKA_MIX4_ZIP` -/
inductive Mix4Form
  | zip
  | laneCopy
  deriving DecidableEq, Repr

def vcopyqLaneqS32 (a : Vec128) (lane1 : Nat) (b : Vec128) (lane2 : Nat) : Vec128 :=
  ofLanes 4 fun i => if i = lane1 then lane 32 b lane2 else lane 32 a i

/-- Lanes 0 to 3 of the register `dst`, copied from a lane of each source. -/
def vcopy4 (dst : Vec128) (src : Fin 4 → Vec128 × Nat) : Vec128 :=
  vcopyqLaneqS32 (vcopyqLaneqS32 (vcopyqLaneqS32 (vcopyqLaneqS32 dst 0 (src 0).1 (src 0).2) 1 (src 1).1
    (src 1).2) 2 (src 2).1 (src 2).2) 3 (src 3).1 (src 3).2

/-- `MIX4A_NATIVE` into `n`, `MIX4B_NATIVE` into `s`. -/
def Mix4Form.mix4 (form : Mix4Form) (dst s : State512) : State512 :=
  match form with
  | .zip =>
    let t := vzip1qU32 (s 0) (s 1)
    let a := vzip2qU32 (s 0) (s 1)
    let b := vzip1qU32 (s 2) (s 3)
    let c := vzip2qU32 (s 2) (s 3)
    ![vzip2qU32 a c, vzip1qU32 b t, vzip2qU32 b t, vzip1qU32 a c]
  | .laneCopy =>
    ![vcopy4 (dst 0) ![(s 0, 3), (s 2, 3), (s 1, 3), (s 3, 3)],
      vcopy4 (dst 1) ![(s 2, 0), (s 0, 0), (s 3, 0), (s 1, 0)],
      vcopy4 (dst 2) ![(s 2, 1), (s 0, 1), (s 3, 1), (s 1, 1)],
      vcopy4 (dst 3) ![(s 0, 2), (s 2, 2), (s 1, 2), (s 3, 2)]]

/-- `MIX4_LAST_NATIVE`: registers 1 and 2 of `s` are written. -/
def Mix4Form.mix4Last (form : Mix4Form) (s n : State512) : State512 :=
  match form with
  | .zip =>
    let b := vzip1qU32 (n 2) (n 3)
    let t := vzip1qU32 (n 0) (n 1)
    ![s 0, b, vzip2qU32 b t, s 3]
  | .laneCopy =>
    ![s 0, vcopy4 (s 1) ![(n 2, 0), (n 3, 0), (n 2, 1), (n 3, 1)],
      vcopy4 (s 2) ![(n 2, 1), (n 0, 1), (n 3, 1), (n 1, 1)], s 3]

/-! ## Rounds -/

/-- The feed-forward and the truncated output. -/
def haraka512Output (input perm : Buffer 64) : Buffer 32 :=
  let buf : Buffer 64 := .make fun i => perm.byte i ^^^ input.byte i
  let out := (.zero : Buffer 32).memcpy 0 (fun i => buf.byte (8 + i)) 8
  let out := out.memcpy 8 (fun i => buf.byte (24 + i)) 8
  let out := out.memcpy 16 (fun i => buf.byte (32 + i)) 8
  out.memcpy 24 (fun i => buf.byte (48 + i)) 8

/-- Word `i` of the registers as an array. -/
def wordOf (s : State512) (i : Nat) : BitVec 32 := lane 32 (s (Fin.ofNat 4 (i / 4))) (i % 4)

section aes

-- `aes_encrypt_round_native`, with any round
variable (aesRound : Vec128 → Vec128 → Vec128)

/-- `AES4_NATIVE`: two AES rounds of each register, with keys from `rci` on. -/
def aes4With (s : State512) (rc : Nat → Vec128) (rci : Nat) : State512 :=
  fun i => aesRound (aesRound (s i) (rc (rci + i))) (rc (rci + 4 + i))

/-- `AES4_LAST_NATIVE` -/
def aes4LastWith (s : State512) (rc : Nat → Vec128) (rci : Nat) : State512 :=
  ![s 0, s 1, aesRound (aesRound (s 2) (rc (rci + 2))) (rc (rci + 6)), s 3]

/-- One of the five rounds of the permutation. -/
def round512With (rc : Nat → Vec128) (s : State512) (i : Nat) : State512 :=
  mix4Native (aes4With aesRound s rc (8 * i))

/-- `haraka512_perm_native` -/
def haraka512PermWith (input : Buffer 64) (rc : Nat → Vec128) : Buffer 64 :=
  store512 ((List.range 5).foldl (round512With aesRound rc) (load512 input))

/-- `haraka512_keyed_full_native` -/
def haraka512KeyedFullWith (input : Buffer 64) (rc : Nat → Vec128) : Buffer 32 :=
  haraka512Output input (haraka512PermWith aesRound input rc)

/-- The word that `haraka512_keyed_native` writes. -/
def haraka512KeyedWordWith (form : Mix4Form) (n : State512) (input : Buffer 64) (rc : Nat → Vec128) :
    BitVec 32 :=
  let s := aes4With aesRound (load512 input) rc 0
  let n := form.mix4 n s
  let n := aes4With aesRound n rc 8
  let s := form.mix4 s n
  let s := aes4With aesRound s rc 16
  let n := form.mix4 n s
  let n := aes4With aesRound n rc 24
  let s := form.mix4Last s n
  let s := aes4LastWith aesRound s rc 32
  wordOf s 10 ^^^ le32dec fun k => input.byte (52 + k)

/-- `haraka512_keyed_native`: the output buffer with its word 7 written. -/
def haraka512KeyedWith (form : Mix4Form) (n : State512) (out : Buffer 32) (input : Buffer 64)
    (rc : Nat → Vec128) : Buffer 32 :=
  setWord out 7 (haraka512KeyedWordWith aesRound form n input rc)

end aes

def haraka512Native (input : Buffer 64) : Buffer 32 :=
  haraka512KeyedFullWith aesEncryptRoundNative input rcNative

def haraka512KeyedFullNative (input : Buffer 64) (rc : Nat → Vec128) : Buffer 32 :=
  haraka512KeyedFullWith aesEncryptRoundNative input rc

/-- Word 7 of the output, the only one that is written, in the default build. -/
def haraka512KeyedNative (input : Buffer 64) (rc : Nat → Vec128) : BitVec 32 :=
  haraka512KeyedWordWith aesEncryptRoundNative .zip (fun _ => 0) input rc

/-! ## Haraka256 -/

def round256 (s : Vec128 × Vec128) (i : Nat) : Vec128 × Vec128 :=
  let rc := fun k => rcNative (4 * i + k)
  let s0 := aesEncryptRoundNative (aesEncryptRoundNative s.1 (rc 0)) (rc 2)
  let s1 := aesEncryptRoundNative (aesEncryptRoundNative s.2 (rc 1)) (rc 3)
  (vzip1qU32 s0 s1, vzip2qU32 s0 s1)

/-- The two registers of the output. -/
def haraka256Native (input : Vec128 × Vec128) : Vec128 × Vec128 :=
  let s := (List.range 5).foldl round256 input
  (s.1 ^^^ input.1, s.2 ^^^ input.2)

/-! ## The truncated output -/

/-- The lanes of `zip1`: the low words of both registers, in turn. -/
theorem lane_vzip1qU32 (a b : Vec128) {i : Nat} (hi : i < 4) :
    lane 32 (vzip1qU32 a b) i = if i % 2 = 0 then lane 32 a (i / 2) else lane 32 b (i / 2) :=
  lane_ofLanes _ (by decide) hi

theorem lane_vzip2qU32 (a b : Vec128) {i : Nat} (hi : i < 4) :
    lane 32 (vzip2qU32 a b) i = if i % 2 = 0 then lane 32 a (2 + i / 2) else lane 32 b (2 + i / 2) :=
  lane_ofLanes _ (by decide) hi

/-- Four bytes of a register make a word of it. -/
theorem le32dec_lanes (v : Vec128) (i : Nat) :
    le32dec (fun k => lane 8 v (4 * i + k)) = lane 32 v i := by
  apply BitVec.eq_of_getLsbD_eq
  intro j hj
  have hindex : 8 * (4 * i + j / 8) + j % 8 = 32 * i + j := by omega
  rw [getLsbD_le32dec _ hj, getLsbD_lane, getLsbD_lane, hindex]
  simp [hj, Nat.mod_lt]

theorem le32dec_xor (p q : Nat → Byte) :
    le32dec (fun k => p k ^^^ q k) = le32dec p ^^^ le32dec q := by
  apply BitVec.eq_of_getLsbD_eq
  intro j hj
  rw [BitVec.getLsbD_xor, getLsbD_le32dec _ hj, getLsbD_le32dec _ hj, getLsbD_le32dec _ hj,
    BitVec.getLsbD_xor]

/-- Where word 7 of the output comes from. -/
theorem word_haraka512Output (input : Buffer 64) (s : State512) :
    word (haraka512Output input (store512 s)) 7 = lane 32 (s 3) 1 ^^^ word input 13 := by
  rw [← le32dec_lanes, word, word, ← le32dec_xor]
  apply le32dec_congr
  intro k hk
  rw [haraka512Output, Buffer.byte_memcpy_of_mem (by omega) (by omega) (by omega), Buffer.byte_make,
    if_pos (by omega), store512, Buffer.byte_make, if_pos (by omega)]
  have hindex : 48 + (4 * 7 + k - 24) = 4 * 13 + k := by omega
  have hvector : (4 * 13 + k) / 16 = 3 := by omega
  have hlane : (4 * 13 + k) % 16 = 4 + k := by omega
  rw [hindex, hvector, hlane]
  rfl

/-- The last mixing step moves lane 2 of register 2 into the word that is kept. -/
theorem lane_mix4Native (s : State512) : lane 32 (mix4Native s 3) 1 = lane 32 (s 2) 2 := by
  show lane 32 (vzip1qU32 (vzip2qU32 (s 0) (s 1)) (vzip2qU32 (s 2) (s 3))) 1 = lane 32 (s 2) 2
  rw [lane_vzip1qU32 _ _ (by omega), if_neg (by decide), lane_vzip2qU32 _ _ (by omega), if_pos (by decide)]

end PrimoMiner
