import PrimoMiner.Library.Region
import PrimoMiner.Sha256Stream

/-!
# HMAC and PBKDF2 of `scrypt_neon.c`

The counters of `pbkdf2_sha256` are of 32 bits.  So the loop over the iterations never ends when their
number is the greatest one, and the offset of a block wraps when the output is longer than 4 GiB: the
last block is then copied with a length that counts from a wrapped offset, beyond the 32 bytes of `T`.
For every other output the function gives what PBKDF2 is.
-/

namespace PrimoMiner

open Sha256 (Word State Vec vec)

/-! ## What the functions are for -/

/-- HMAC with SHA-256: a key that is longer than a block is hashed, a shorter one filled with zeros. -/
def hmacSha256 (key message : List Byte) : List Byte :=
  let key := if 64 < key.length then sha256 key else key
  let block := key ++ List.replicate (64 - key.length) 0
  sha256 (block.map (· ^^^ 0x5c) ++ sha256 (block.map (· ^^^ 0x36) ++ message))

/-- `U_(c + 1)` of block `i`. -/
def pbkdf2U (password salt : List Byte) (i : Nat) : Nat → List Byte
  | 0 => hmacSha256 password (salt ++ be32enc (BitVec.ofNat 32 i))
  | c + 1 => hmacSha256 password (pbkdf2U password salt i c)

/-- `U_1` to `U_(c + 1)` of block `i`, combined. -/
def pbkdf2T (password salt : List Byte) (i : Nat) : Nat → List Byte
  | 0 => pbkdf2U password salt i 0
  | c + 1 => List.zipWith (· ^^^ ·) (pbkdf2T password salt i c) (pbkdf2U password salt i (c + 1))

/-- PBKDF2 with HMAC-SHA-256: the blocks from 1 on, as far as they are needed. -/
def pbkdf2HmacSha256 (password salt : List Byte) (iterations dkLen : Nat) : List Byte :=
  ((List.range ((dkLen + 31) / 32)).flatMap fun i =>
    pbkdf2T password salt (i + 1) (iterations - 1)).take dkLen

/-! ## The code -/

namespace Scrypt

/-- The pad with the key combined into its first bytes. -/
def keyPad (pad : Byte) (key : List Byte) : Buffer 64 :=
  (List.range key.length).foldl (fun k i => k.memcpy i (fun _ => k.byte i ^^^ key.getD i 0) 1)
    (Buffer.zero.memset 0 pad 64)

section code
-- `stack` stands for a context that is declared and not initialised
variable (useArm : Bool) (stack : Sha256Ctx)

/-- A key of more than 64 bytes is replaced by its hash. -/
def shortKey (key : List Byte) : List Byte := if 64 < key.length then sha256 useArm stack key else key

def hmacSha256Init (ctx : Sha256Ctx) (key : List Byte) : Sha256Ctx :=
  sha256Update useArm (sha256Init ctx) ((keyPad 0x36 (shortKey useArm stack key)).bytes 0 64)

def hmacSha256Final (ctx : Sha256Ctx) (key : List Byte) : List Byte :=
  let innerHash := sha256Final useArm ctx
  let outerCtx := sha256Update useArm (sha256Init stack) ((keyPad 0x5c (shortKey useArm stack key)).bytes 0 64)
  sha256Final useArm (sha256Update useArm outerCtx innerHash)

variable (password salt : List Byte) (iterations : BitVec 32)

/-- The loop over the iterations, which is at `j`; it has no result within `fuel` passes if there are
more. -/
def iterate : Nat → BitVec 32 → Sha256Ctx → List Byte → List Byte → Option (Sha256Ctx × List Byte)
  | 0, _, _, _, _ => none
  | fuel + 1, j, ctx, u, t =>
    if j ≤ iterations then
      let ctx := sha256Update useArm (hmacSha256Init useArm stack ctx password) u
      let u := hmacSha256Final useArm stack ctx password
      iterate fuel (j + 1) ctx u (List.zipWith (· ^^^ ·) t u)
    else some (ctx, t)

/-- `T` of block `i`. -/
def block (fuel : Nat) (i : BitVec 32) (ctx : Sha256Ctx) : Option (Sha256Ctx × List Byte) :=
  let ctx := sha256Update useArm (hmacSha256Init useArm stack ctx password) salt
  let ctx := sha256Update useArm ctx (be32enc i)
  let u := hmacSha256Final useArm stack ctx password
  iterate useArm stack password iterations fuel 2 ctx u u

variable (dkLen : Nat)

/-- The copy of `T` for block `i`; `(i - 1) * 32` is a number of 32 bits. -/
def copyBlock (blocks i : BitVec 32) (t : List Byte) (dk : Region Byte) : Except Region.Stop (Region Byte) :=
  let offset := (i - 1) * 32
  let copyLen := if i = blocks then (BitVec.ofNat 64 dkLen - offset.setWidth 64).toNat else 32
  if copyLen ≤ 32 then Region.access (dk.store offset.toNat (t.take copyLen)) else .error .badAccess

/-- The loop over the blocks, which is at `i`. -/
def fillBlocks (blocks : BitVec 32) (inner : Nat) :
    Nat → BitVec 32 → Sha256Ctx → Region Byte → Option (Except Region.Stop (Region Byte))
  | 0, _, _, _ => none
  | fuel + 1, i, ctx, dk =>
    if i ≤ blocks then
      match block useArm stack password salt iterations inner i ctx with
      | none => none
      | some (ctx, t) =>
        match copyBlock dkLen blocks i t dk with
        | .error stop => some (.error stop)
        | .ok dk => fillBlocks blocks inner fuel (i + 1) ctx dk
    else some (.ok dk)

/-- `pbkdf2_sha256` on an output of `dkLen` bytes, each loop with `fuel` passes. -/
def pbkdf2Sha256 (fuel : Nat) : Option (Except Region.Stop (Region Byte)) :=
  fillBlocks useArm stack password salt iterations dkLen (BitVec.ofNat 32 ((dkLen + 31) / 32)) fuel fuel 1
    stack (Region.malloc Byte dkLen)

end code

/-! ## HMAC -/

theorem byte_keyPad (pad : Byte) (key : List Byte) {i : Nat} (hi : i < 64) :
    (keyPad pad key).byte i = pad ^^^ key.getD i 0 := by
  have hsteps : ∀ n, n ≤ key.length → ((List.range n).foldl
      (fun k i => k.memcpy i (fun _ => k.byte i ^^^ key.getD i 0) 1)
        ((Buffer.zero : Buffer 64).memset 0 pad 64)).byte i = if i < n then pad ^^^ key.getD i 0 else pad := by
    intro n hn
    induction n with
    | zero => rw [List.range_zero, List.foldl_nil, Buffer.byte_memset, if_pos (by omega), if_neg (by omega)]
    | succ n ih =>
      rw [List.range_succ, List.foldl_append, List.foldl_cons, List.foldl_nil]
      by_cases hin : i = n
      · subst hin
        rw [Buffer.byte_memcpy_of_mem (by omega) (by omega) hi, ih (by omega), if_neg (by omega),
          if_pos (by omega)]
      · rw [Buffer.byte_memcpy_of_not_mem (by omega), ih (by omega)]
        by_cases hlt : i < n
        · rw [if_pos hlt, if_pos (by omega)]
        · rw [if_neg hlt, if_neg (by omega)]
  rw [keyPad, hsteps key.length (Nat.le_refl _)]
  split
  case isTrue => rfl
  case isFalse hge =>
    rw [List.getD_eq_default key 0 (by omega)]
    exact BitVec.xor_zero.symm

theorem bytes_keyPad (pad : Byte) {key : List Byte} (hkey : key.length ≤ 64) :
    (keyPad pad key).bytes 0 64 = (key ++ List.replicate (64 - key.length) 0).map (· ^^^ pad) := by
  apply List.ext_getElem
  · rw [Buffer.bytes_length, List.length_map, List.length_append, List.length_replicate]
    omega
  · intro i hi _
    rw [Buffer.bytes_length] at hi
    simp only [Buffer.bytes, List.getElem_map, List.getElem_range, Nat.zero_add]
    rw [byte_keyPad pad key hi, BitVec.xor_comm]
    congr 1
    rw [List.getElem_append]
    split
    case isTrue hlt => exact List.getD_eq_getElem key 0 hlt
    case isFalse hge =>
      rw [List.getElem_replicate]
      exact List.getD_eq_default key 0 (by omega)

theorem length_sha256 (message : List Byte) : (PrimoMiner.sha256 message).length = 32 := by
  rw [sha256_eq_absorb, length_flatMap_be32enc]
  rfl

theorem length_hmacSha256 (key message : List Byte) : (hmacSha256 key message).length = 32 :=
  length_sha256 _

section hmac
variable (useArm : Bool) (stack ctx : Sha256Ctx) (key : List Byte)

theorem bytes_keyPad_shortKey (pad : Byte) :
    (keyPad pad (shortKey useArm stack key)).bytes 0 64 =
      let key := if 64 < key.length then PrimoMiner.sha256 key else key
      (key ++ List.replicate (64 - key.length) 0).map (· ^^^ pad) := by
  have hshort : shortKey useArm stack key = if 64 < key.length then PrimoMiner.sha256 key else key := by
    rw [shortKey, sha256_eq]
  rw [hshort]
  apply bytes_keyPad
  split
  case isTrue =>
    rw [length_sha256]
    decide
  case isFalse hle => exact Nat.not_lt.mp hle

/-- An HMAC whose message comes in pieces. -/
theorem hmacSha256Final_updates (chunks : List (List Byte)) :
    hmacSha256Final useArm stack (chunks.foldl (sha256Update useArm) (hmacSha256Init useArm stack ctx key))
      key = hmacSha256 key chunks.flatten := by
  have hinner := final_updates useArm ctx ((keyPad 0x36 (shortKey useArm stack key)).bytes 0 64 :: chunks)
  rw [List.foldl_cons, List.flatten_cons, bytes_keyPad_shortKey] at hinner
  have houter := fun inner => final_updates useArm stack
    [(keyPad 0x5c (shortKey useArm stack key)).bytes 0 64, inner]
  rw [hmacSha256Final, hmacSha256Init]
  simp only [List.foldl_cons, List.foldl_nil, List.flatten_cons, List.flatten_nil, List.append_nil] at houter
  rw [houter, bytes_keyPad_shortKey, bytes_keyPad_shortKey, hinner]
  rfl

end hmac

/-! ## The loops -/

section loops
variable {useArm : Bool} {stack : Sha256Ctx} {password salt : List Byte} {iterations : BitVec 32}

/-- The loop over the iterations that are left. -/
theorem iterate_eq {i c : Nat} {j : BitVec 32} {fuel : Nat} (hj : j.toNat = c + 2)
    (hmax : iterations.toNat + 1 < 2 ^ 32) (hle : c + 1 ≤ iterations.toNat) (hfuel : iterations.toNat < fuel + c + 1)
    (ctx : Sha256Ctx) :
    ∃ ctx', iterate useArm stack password iterations fuel j ctx (pbkdf2U password salt i c)
      (pbkdf2T password salt i c) = some (ctx', pbkdf2T password salt i (iterations.toNat - 1)) := by
  induction fuel generalizing j c ctx with
  | zero => omega
  | succ fuel ih =>
    rw [iterate]
    by_cases hmore : j ≤ iterations
    · have hlt : j.toNat ≤ iterations.toNat := hmore
      have hu := hmacSha256Final_updates useArm stack ctx password [pbkdf2U password salt i c]
      rw [List.flatten_singleton] at hu
      rw [if_pos hmore]
      dsimp only
      rw [List.foldl_cons, List.foldl_nil] at hu
      rw [hu]
      have hnext : (j + 1).toNat = c + 1 + 2 := by
        rw [BitVec.toNat_add]
        show (j.toNat + 1) % 2 ^ 32 = _
        omega
      exact ih hnext (by omega) (by omega) _
    · have hge : ¬ j.toNat ≤ iterations.toNat := hmore
      rw [if_neg hmore, show iterations.toNat - 1 = c by omega]
      exact ⟨ctx, rfl⟩

/-- The greatest number of iterations: the counter is never above it. -/
theorem iterate_max (fuel : Nat) (j : BitVec 32) (ctx : Sha256Ctx) (u t : List Byte) :
    iterate useArm stack password (BitVec.allOnes 32) fuel j ctx u t = none := by
  induction fuel generalizing j ctx u t with
  | zero => rfl
  | succ fuel ih =>
    have hle : j ≤ BitVec.allOnes 32 := by
      show j.toNat ≤ (BitVec.allOnes 32).toNat
      rw [BitVec.toNat_allOnes]
      exact Nat.le_sub_one_of_lt j.isLt
    rw [iterate, if_pos hle]
    exact ih _ _ _ _

theorem block_eq {fuel : Nat} {i : BitVec 32} (hone : 1 ≤ iterations.toNat)
    (hmax : iterations.toNat + 1 < 2 ^ 32) (hfuel : iterations.toNat ≤ fuel) (ctx : Sha256Ctx) :
    ∃ ctx', block useArm stack password salt iterations fuel i ctx =
      some (ctx', pbkdf2T password salt i.toNat (iterations.toNat - 1)) := by
  have hu := hmacSha256Final_updates useArm stack ctx password [salt, be32enc i]
  simp only [List.foldl_cons, List.foldl_nil, List.flatten_cons, List.flatten_nil, List.append_nil] at hu
  have hfirst : pbkdf2U password salt i.toNat 0 = hmacSha256 password (salt ++ be32enc i) := by
    rw [pbkdf2U, BitVec.ofNat_toNat, BitVec.setWidth_eq]
  rw [block, hu, ← hfirst]
  exact iterate_eq rfl hmax (by omega) (by omega) _

theorem block_max (fuel : Nat) (i : BitVec 32) (ctx : Sha256Ctx) :
    block useArm stack password salt (BitVec.allOnes 32) fuel i ctx = none :=
  iterate_max fuel 2 _ _ _

/-- The blocks from 1 to `n`. -/
def output (password salt : List Byte) (c n : Nat) : List Byte :=
  (List.range n).flatMap fun i => pbkdf2T password salt (i + 1) c

theorem length_pbkdf2T (password salt : List Byte) (i c : Nat) : (pbkdf2T password salt i c).length = 32 := by
  have hu : ∀ c, (pbkdf2U password salt i c).length = 32 := by
    intro c
    cases c with
    | zero => exact length_hmacSha256 _ _
    | succ c => exact length_hmacSha256 _ _
  induction c with
  | zero => exact hu 0
  | succ c ih => rw [pbkdf2T, List.length_zipWith, ih, hu, Nat.min_self]

theorem output_succ (password salt : List Byte) (c n : Nat) :
    output password salt c (n + 1) = output password salt c n ++ pbkdf2T password salt (n + 1) c := by
  rw [output, List.range_succ, List.flatMap_append, List.flatMap_singleton]
  rfl

theorem length_output (password salt : List Byte) (c n : Nat) : (output password salt c n).length = 32 * n := by
  induction n with
  | zero => rfl
  | succ n ih =>
    rw [output_succ, List.length_append, ih, length_pbkdf2T]
    omega

variable {dkLen : Nat} {blocks : BitVec 32}

/-- The copy of block `n + 1` goes on with the output. -/
theorem copyBlock_filled {dk : Region Byte} {c n : Nat} {i : BitVec 32} (hlen : dkLen ≤ 2 ^ 32)
    (hblocks : blocks.toNat = (dkLen + 31) / 32) (hi : i.toNat = n + 1) (hn : n + 1 ≤ blocks.toNat)
    (hdk : dk.length = dkLen) (hfilled : dk.Filled ((output password salt c n).take dkLen)) :
    ∃ dk', copyBlock dkLen blocks i (pbkdf2T password salt (n + 1) c) dk = .ok dk' ∧ dk'.length = dkLen ∧
      dk'.Filled ((output password salt c (n + 1)).take dkLen) := by
  have hoffset : ((i - 1) * 32).toNat = 32 * n := by
    rw [BitVec.toNat_mul, BitVec.toNat_sub]
    show ((2 ^ 32 - 1 + i.toNat) % 2 ^ 32 * 32) % 2 ^ 32 = 32 * n
    omega
  let copyLen := if n + 1 = blocks.toNat then dkLen - 32 * n else 32
  have hcopy : (if i = blocks then (BitVec.ofNat 64 dkLen - ((i - 1) * 32).setWidth 64).toNat else 32) =
      copyLen := by
    have hlast : i = blocks ↔ n + 1 = blocks.toNat := by rw [BitVec.toNat_eq, hi]
    simp only [hlast, copyLen]
    split
    case isFalse => rfl
    case isTrue =>
      rw [BitVec.toNat_sub, BitVec.toNat_setWidth, BitVec.toNat_ofNat, hoffset]
      omega
  have hcopyLen : copyLen ≤ 32 ∧ 32 * n + copyLen ≤ dkLen ∧
      (copyLen = 32 ∨ 32 * n + copyLen = dkLen) := by
    simp only [copyLen]
    split <;> omega
  have htake : (output password salt c n).take dkLen = output password salt c n := by
    apply List.take_of_length_le
    rw [length_output]
    omega
  have hnext : output password salt c n ++ (pbkdf2T password salt (n + 1) c).take copyLen =
      (output password salt c (n + 1)).take dkLen := by
    rw [output_succ, List.take_append, htake, length_output]
    congr 1
    rcases hcopyLen.2.2 with hfull | hlast
    · rw [List.take_of_length_le (by rw [length_pbkdf2T]; omega),
        List.take_of_length_le (by rw [length_pbkdf2T]; omega)]
    · rw [show copyLen = dkLen - 32 * n by omega]
  rw [htake] at hfilled
  have hfit : (output password salt c n).length + ((pbkdf2T password salt (n + 1) c).take copyLen).length ≤
      dk.length := by
    rw [length_output, List.length_take, length_pbkdf2T]
    omega
  obtain ⟨dk', hstore, hfilled'⟩ := hfilled.store ((pbkdf2T password salt (n + 1) c).take copyLen) hfit
  rw [length_output] at hstore
  refine ⟨dk', ?_, (Region.length_store hstore).trans hdk, hnext ▸ hfilled'⟩
  rw [copyBlock]
  simp only [hcopy, hoffset, if_pos hcopyLen.1, hstore, Region.access]

theorem fillBlocks_eq {inner : Nat} (hlen : dkLen ≤ 2 ^ 32) (hblocks : blocks.toNat = (dkLen + 31) / 32)
    (hone : 1 ≤ iterations.toNat) (hmax : iterations.toNat + 1 < 2 ^ 32) (hinner : iterations.toNat ≤ inner)
    {fuel n : Nat} {i : BitVec 32} (hi : i.toNat = n + 1) (hn : n ≤ blocks.toNat)
    (hfuel : blocks.toNat < fuel + n) (ctx : Sha256Ctx) {dk : Region Byte} (hdk : dk.length = dkLen)
    (hfilled : dk.Filled ((output password salt (iterations.toNat - 1) n).take dkLen)) :
    fillBlocks useArm stack password salt iterations dkLen blocks inner fuel i ctx dk =
      some (.ok ((pbkdf2HmacSha256 password salt iterations.toNat dkLen).map some)) := by
  induction fuel generalizing n i ctx dk with
  | zero => omega
  | succ fuel ih =>
    rw [fillBlocks]
    by_cases hmore : i ≤ blocks
    · have hle : i.toNat ≤ blocks.toNat := hmore
      obtain ⟨ctx', hblock⟩ : ∃ ctx', block useArm stack password salt iterations inner i ctx =
          some (ctx', pbkdf2T password salt i.toNat (iterations.toNat - 1)) :=
        block_eq hone hmax hinner ctx
      obtain ⟨dk', hcopy, hdk', hfilled'⟩ := copyBlock_filled hlen hblocks hi (by omega) hdk hfilled
      rw [if_pos hmore, hblock, hi]
      dsimp only
      rw [hcopy]
      refine ih ?_ (by omega) (by omega) ctx' hdk' hfilled'
      rw [BitVec.toNat_add]
      show (i.toNat + 1) % 2 ^ 32 = _
      omega
    · have hge : ¬ i.toNat ≤ blocks.toNat := hmore
      obtain rfl : n = (dkLen + 31) / 32 := by omega
      have hlength : dk.length = ((output password salt (iterations.toNat - 1) ((dkLen + 31) / 32)).take
          dkLen).length := by
        rw [List.length_take, length_output]
        omega
      rw [if_neg hmore, hfilled.eq_map hlength]
      rfl

/-- An output of more than 4 GiB: the last block is not copied within `T`. -/
theorem fillBlocks_long (hlong : 2 ^ 32 < dkLen) (hlen : dkLen ≤ (2 ^ 32 - 1) * 32)
    (hblocks : blocks.toNat = (dkLen + 31) / 32) {inner fuel : Nat} {i : BitVec 32} (hi : i ≤ blocks)
    (ctx : Sha256Ctx) (dk dk' : Region Byte) :
    fillBlocks useArm stack password salt iterations dkLen blocks inner fuel i ctx dk ≠ some (.ok dk') := by
  induction fuel generalizing i ctx dk with
  | zero => exact (Option.some_ne_none _).symm
  | succ fuel ih =>
    rw [fillBlocks, if_pos hi]
    cases block useArm stack password salt iterations inner i ctx with
    | none => exact (Option.some_ne_none _).symm
    | some result =>
      obtain ⟨ctx, t⟩ := result
      dsimp only
      by_cases hlast : i = blocks
      · -- the offset has wrapped and the length counts from there
        have hoffset : ((i - 1) * 32).toNat = (blocks.toNat - 1) * 32 % 2 ^ 32 := by
          rw [hlast, BitVec.toNat_mul, BitVec.toNat_sub]
          show ((2 ^ 32 - 1 + blocks.toNat) % 2 ^ 32 * 32) % 2 ^ 32 = _
          omega
        have hcopy : ¬ (BitVec.ofNat 64 dkLen - ((i - 1) * 32).setWidth 64).toNat ≤ 32 := by
          rw [BitVec.toNat_sub, BitVec.toNat_setWidth, BitVec.toNat_ofNat, hoffset]
          omega
        have hstop : copyBlock dkLen blocks i t dk = .error .badAccess := by
          rw [copyBlock]
          simp only [if_pos hlast, if_neg hcopy]
        rw [hstop]
        simp
      · cases copyBlock dkLen blocks i t dk with
        | error stop => simp
        | ok dk =>
          apply ih
          have hne : i.toNat ≠ blocks.toNat := fun h => hlast (BitVec.eq_of_toNat_eq h)
          have hle : i.toNat ≤ blocks.toNat := hi
          have hlt := blocks.isLt
          show (i + 1).toNat ≤ blocks.toNat
          rw [BitVec.toNat_add]
          show (i.toNat + 1) % 2 ^ 32 ≤ blocks.toNat
          omega

end loops

theorem blocks_toNat {dkLen : Nat} (hlen : dkLen ≤ (2 ^ 32 - 1) * 32) :
    (BitVec.ofNat 32 ((dkLen + 31) / 32)).toNat = (dkLen + 31) / 32 := by
  rw [BitVec.toNat_ofNat, Nat.mod_eq_of_lt (by omega)]

theorem one_le_blocks {dkLen : Nat} (hlen : dkLen ≤ (2 ^ 32 - 1) * 32) (hsome : dkLen ≠ 0) :
    1 ≤ BitVec.ofNat 32 ((dkLen + 31) / 32) := by
  show 1 ≤ (BitVec.ofNat 32 ((dkLen + 31) / 32)).toNat
  rw [blocks_toNat hlen]
  omega

section results
variable (useArm : Bool) (stack : Sha256Ctx) (password salt : List Byte) {dkLen : Nat}
  (hlen : dkLen ≤ (2 ^ 32 - 1) * 32)
include hlen

/-- With the greatest number of iterations no block is finished. -/
theorem pbkdf2Sha256_max (hsome : dkLen ≠ 0) (fuel : Nat) :
    pbkdf2Sha256 useArm stack password salt (BitVec.allOnes 32) dkLen fuel = none := by
  rw [pbkdf2Sha256]
  cases fuel with
  | zero => rfl
  | succ fuel => rw [fillBlocks, if_pos (one_le_blocks hlen hsome), block_max]

theorem pbkdf2Sha256_long (hlong : 2 ^ 32 < dkLen) (iterations : BitVec 32) (fuel : Nat) (dk : Region Byte) :
    pbkdf2Sha256 useArm stack password salt iterations dkLen fuel ≠ some (.ok dk) :=
  fillBlocks_long hlong hlen (blocks_toNat hlen) (one_le_blocks hlen (by omega)) _ _ _

theorem pbkdf2Sha256_eq {iterations : BitVec 32} (hone : 1 ≤ iterations) (hmax : iterations ≠ BitVec.allOnes 32)
    (hshort : dkLen ≤ 2 ^ 32) {fuel : Nat} (hfuel : iterations.toNat ≤ fuel) (hblocks : (dkLen + 31) / 32 < fuel) :
    pbkdf2Sha256 useArm stack password salt iterations dkLen fuel =
      some (.ok ((pbkdf2HmacSha256 password salt iterations.toNat dkLen).map some)) := by
  have hlast : iterations.toNat + 1 < 2 ^ 32 := by
    have hlt := iterations.isLt
    have hne : iterations.toNat ≠ 2 ^ 32 - 1 := fun h =>
      hmax (BitVec.eq_of_toNat_eq (by rw [h, BitVec.toNat_allOnes]))
    omega
  have hempty : (Region.malloc Byte dkLen).Filled
      ((output password salt (iterations.toNat - 1) 0).take dkLen) := by
    rw [show output password salt (iterations.toNat - 1) 0 = [] from rfl, List.take_nil]
    exact Region.Filled.nil _
  refine fillBlocks_eq hshort (blocks_toNat hlen) hone hlast hfuel rfl (Nat.zero_le _) ?_ stack
    List.length_replicate hempty
  rw [blocks_toNat hlen]
  omega

/-- The outputs that `pbkdf2_sha256` gives. -/
theorem pbkdf2Sha256_iff {iterations : BitVec 32} (hone : 1 ≤ iterations) :
    (∃ fuel, pbkdf2Sha256 useArm stack password salt iterations dkLen fuel =
        some (.ok ((pbkdf2HmacSha256 password salt iterations.toNat dkLen).map some))) ↔
      dkLen = 0 ∨ (iterations ≠ BitVec.allOnes 32 ∧ dkLen ≤ 2 ^ 32) := by
  constructor
  · rintro ⟨fuel, h⟩
    by_contra hnot
    rw [not_or, not_and_or, not_not, Nat.not_le] at hnot
    obtain ⟨hsome, rfl | hlong⟩ := hnot
    · rw [pbkdf2Sha256_max useArm stack password salt hlen hsome] at h
      exact Option.some_ne_none _ h.symm
    · exact pbkdf2Sha256_long useArm stack password salt hlen hlong iterations fuel _ h
  · rintro (rfl | ⟨hmax, hshort⟩)
    · exact ⟨1, rfl⟩
    · exact ⟨iterations.toNat + (dkLen + 31) / 32 + 1,
        pbkdf2Sha256_eq useArm stack password salt hlen hone hmax hshort (by omega) (by omega)⟩

end results

end Scrypt

/-- Both copies of the streaming code give the digest of what was fed to them, in whatever pieces.  On the
domain of PBKDF2, `pbkdf2_sha256` gives its output exactly when there is none to give, or the iterations
are fewer than the greatest number and the output is of 4 GiB at most. -/
theorem streaming_and_pbkdf2 (hasCrypto useArm : Bool) (ctx : Sha256Ctx) (chunks : List (List Byte))
    (password salt : List Byte) (iterations : BitVec 32) (dkLen : Nat) (hone : 1 ≤ iterations)
    (hlen : dkLen ≤ (2 ^ 32 - 1) * 32) :
    sha256NeonFinal hasCrypto (chunks.foldl (sha256NeonUpdate hasCrypto) (sha256NeonInit ctx)) =
        sha256 chunks.flatten ∧
      Scrypt.sha256Final useArm (chunks.foldl (Scrypt.sha256Update useArm) (Scrypt.sha256Init ctx)) =
        sha256 chunks.flatten ∧
      ((∃ fuel, Scrypt.pbkdf2Sha256 useArm ctx password salt iterations dkLen fuel =
          some (.ok ((pbkdf2HmacSha256 password salt iterations.toNat dkLen).map some))) ↔
        dkLen = 0 ∨ (iterations ≠ BitVec.allOnes 32 ∧ dkLen ≤ 2 ^ 32)) :=
  ⟨sha256NeonFinal_updates hasCrypto ctx chunks, Scrypt.final_updates useArm ctx chunks,
    Scrypt.pbkdf2Sha256_iff useArm ctx password salt hlen hone⟩

/-- A header as its own salt, once, for 128 bytes. -/
theorem streaming_and_pbkdf2_header :
    ∃ fuel, Scrypt.pbkdf2Sha256 true ⟨h256Init, 0, Buffer.zero⟩ (List.replicate 80 0) (List.replicate 80 0) 1
      128 fuel = some (.ok ((pbkdf2HmacSha256 (List.replicate 80 0) (List.replicate 80 0) 1 128).map some)) :=
  (streaming_and_pbkdf2 true true ⟨h256Init, 0, Buffer.zero⟩ [] (List.replicate 80 0) (List.replicate 80 0) 1
    128 (by decide) (by decide)).2.2.mpr (.inr ⟨by decide, by decide⟩)

/-- One byte with the greatest number of iterations is never made. -/
theorem pbkdf2_greatest_count_fails :
    ¬ ∃ fuel, Scrypt.pbkdf2Sha256 true ⟨h256Init, 0, Buffer.zero⟩ [] [] 0xffffffff 1 fuel =
      some (.ok ((pbkdf2HmacSha256 [] [] (0xffffffff : BitVec 32).toNat 1).map some)) := by
  rintro ⟨fuel, h⟩
  have hnone := Scrypt.pbkdf2Sha256_max true ⟨h256Init, 0, Buffer.zero⟩ [] [] (show 1 ≤ _ by decide)
    Nat.one_ne_zero fuel
  exact Option.some_ne_none _ (h.symm.trans hnone)

end PrimoMiner
