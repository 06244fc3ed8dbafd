import PrimoMiner.Pbkdf2
import PrimoMiner.ScryptRomix

/-!
# The scrypt cores of `scrypt_neon.c`

A header is stretched to a block, the block is mixed in the scratchpad, and the hash is derived from the
result.  The cores differ in how many headers they take and in where the blocks and the saved states stand
in the scratchpad.  The scratchpad may hold anything at the start.
-/

namespace PrimoMiner

open Salsa20 (Word Half Block romix)
open ScryptAsm (blockAt)

namespace Scrypt

/-! ## The code -/

/-- Bytes at a word address, in little-endian words. -/
def writeBytes (mem : Memory) (b : Nat) (bytes : List Byte) : Memory := fun a =>
  if b ≤ a ∧ a < b + bytes.length / 4 then le32dec fun k => bytes.getD (4 * (a - b) + k) 0 else mem a

/-- The bytes of `n` words. -/
def readBytes (mem : Memory) (b n : Nat) : List Byte := (List.range n).flatMap fun k => le32enc (mem (b + k))

section cores
variable (useArm : Bool) (stack : Sha256Ctx) (w : Nat → Word) (fuel n : Nat)

/-- `pbkdf2_sha256` with one iteration; every byte of the output has to be written. -/
def pbkdf2Once (password salt : List Byte) (dkLen : Nat) : Option (List Byte) :=
  match pbkdf2Sha256 useArm stack password salt 1 dkLen fuel with
  | some (.ok dk) => dk.mapM id
  | _ => none

/-- `scrypt_core` with `r = 1`: the blocks first, then the states, which they share. -/
def scryptCore (p : Nat) (password salt : List Byte) (dkLen : Nat) (mem : Memory) : Option (List Byte) := do
  let derived ← pbkdf2Once useArm stack fuel password salt (p * 128)
  let mem := writeBytes mem 0 derived
  let mem := (List.range p).foldl (fun mem i => scryptRomixR1Fast w n ⟨i * 32, p * 32⟩ mem) mem
  pbkdf2Once useArm stack fuel password (readBytes mem 0 (p * 32)) dkLen

/-- `Ba`, `Va`, an unused block, `Bb` and `Vb`. -/
def dualLaneA : Lane := ⟨0, 32⟩

def dualLaneB : Lane := ⟨32 + n * 32 + 32, 32 + n * 32 + 64⟩

def scryptCoreDual (passA passB : List Byte) (mem : Memory) : Option (List Byte × List Byte) := do
  let derivedA ← pbkdf2Once useArm stack fuel passA passA 128
  let mem := writeBytes mem dualLaneA.b derivedA
  let derivedB ← pbkdf2Once useArm stack fuel passB passB 128
  let mem := writeBytes mem (dualLaneB n).b derivedB
  let mem := scryptRomixDualScalar w n dualLaneA (dualLaneB n) mem
  let hashA ← pbkdf2Once useArm stack fuel passA (readBytes mem dualLaneA.b 32) 32
  let hashB ← pbkdf2Once useArm stack fuel passB (readBytes mem (dualLaneB n).b 32) 32
  return (hashA, hashB)

/-- Four blocks, then four tables of states. -/
def soaLane (l : Fin 4) : Lane := ⟨l * 32, 128 + l * (n * 32)⟩

def scryptCoreSoa4 (pass : Fin 4 → List Byte) (mem : Memory) : Option (List (List Byte)) := do
  let mem ← (List.finRange 4).foldlM (fun mem l =>
    (pbkdf2Once useArm stack fuel (pass l) (pass l) 128).map (writeBytes mem (soaLane n l).b)) mem
  let mem := scryptRomixSoa4 n (soaLane n) mem
  (List.finRange 4).mapM fun l => pbkdf2Once useArm stack fuel (pass l) (readBytes mem (soaLane n l).b 32) 32

end cores

/-! ## Blocks and bytes -/

/-- 128 bytes as a block. -/
def blockOfBytes (bytes : List Byte) : Block := blockAt (writeBytes (fun _ => 0) 0 bytes) 0

def blockBytes (x : Block) : List Byte := (List.range 32).flatMap fun k => le32enc (blockWord x k)

theorem blockWord_blockAt (mem : Memory) (b : Nat) {k : Nat} (hk : k < 32) :
    blockWord (blockAt mem b) k = mem (b + k) := by
  rw [blockWord]
  split
  case isTrue hlow =>
    show mem (b + k % 16) = mem (b + k)
    rw [Nat.mod_eq_of_lt hlow]
  case isFalse hhigh =>
    show mem (b + 16 + k % 16) = mem (b + k)
    congr 1
    omega

theorem readBytes_eq (mem : Memory) (b : Nat) : readBytes mem b 32 = blockBytes (blockAt mem b) := by
  apply List.flatMap_congr
  intro k hk
  rw [blockWord_blockAt mem b (List.mem_range.mp hk)]

theorem blockAt_writeBytes (mem : Memory) (b : Nat) {bytes : List Byte} (hlen : bytes.length = 128) :
    blockAt (writeBytes mem b bytes) b = blockOfBytes bytes := by
  apply blockAt_congr
  intro k hk
  rw [writeBytes, writeBytes, if_pos (by omega), if_pos (by omega), Nat.add_sub_cancel_left, Nat.zero_add,
    Nat.sub_zero]

theorem writeBytes_outside (mem : Memory) {b a : Nat} {bytes : List Byte} (hlen : bytes.length = 128)
    (ha : ¬ (b ≤ a ∧ a < b + 32)) : writeBytes mem b bytes a = mem a := by
  rw [writeBytes, hlen]
  exact if_neg ha

/-! ## The hash -/

/-- What scrypt with `r = p = 1` gives for a header as its own salt. -/
def scryptHash (n : Nat) (header : List Byte) : List Byte :=
  let block := romix n (blockOfBytes (pbkdf2HmacSha256 header header 1 128))
  pbkdf2HmacSha256 header (blockBytes block) 1 32

section hash
variable (useArm : Bool) (stack : Sha256Ctx) (w : Nat → Word) (extra m : Nat)

/-- Five passes are enough for each loop of the key derivation. -/
theorem pbkdf2Once_eq (password salt : List Byte) {dkLen : Nat} (hlen : dkLen ≤ 128) :
    pbkdf2Once useArm stack (5 + extra) password salt dkLen = some (pbkdf2HmacSha256 password salt 1 dkLen) := by
  have hderived : pbkdf2Sha256 useArm stack password salt 1 dkLen (5 + extra) =
      some (.ok ((pbkdf2HmacSha256 password salt 1 dkLen).map some)) :=
    pbkdf2Sha256_eq useArm stack password salt (show dkLen ≤ (2 ^ 32 - 1) * 32 by omega)
      (show (1 : BitVec 32) ≤ 1 by decide) (by decide) (by omega) (show 1 ≤ 5 + extra by omega) (by omega)
  rw [pbkdf2Once, hderived]
  exact Region.mapM_id_map_some _

theorem length_derived (header : List Byte) : (pbkdf2HmacSha256 header header 1 128).length = 128 := by
  show ((output header header 0 4).take 128).length = 128
  rw [List.length_take, length_output]
  rfl

theorem scryptCore_eq (header : List Byte) (mem : Memory) :
    scryptCore useArm stack w (5 + extra) (2 ^ m) 1 header header 32 mem = some (scryptHash (2 ^ m) header) := by
  let start := writeBytes mem 0 (pbkdf2HmacSha256 header header 1 128)
  have hapart : (⟨0, 32⟩ : Lane).Apart (2 ^ m) := .inl (by decide)
  have hmixed := blockAt_scryptRomixR1Fast (w := w) hapart start
  rw [show blockAt start _ = _ from blockAt_writeBytes mem 0 (length_derived header)] at hmixed
  have hfirst : scryptCore useArm stack w (5 + extra) (2 ^ m) 1 header header 32 mem =
      pbkdf2Once useArm stack (5 + extra) header
        (readBytes (scryptRomixR1Fast w (2 ^ m) ⟨0, 32⟩ start) 0 32) 32 := by
    rw [scryptCore, pbkdf2Once_eq useArm stack extra header header (by decide)]
    rfl
  rw [hfirst, readBytes_eq, hmixed, pbkdf2Once_eq useArm stack extra header _ (by decide)]
  rfl

theorem dualLanes_apart (n : Nat) :
    dualLaneA.Apart n ∧ (dualLaneB n).Apart n ∧ dualLaneA.Disjoint (dualLaneB n) n := by
  refine ⟨.inl (by decide), .inl (Nat.le_refl _), fun a ha ha' => ?_⟩
  unfold Lane.Has dualLaneA at ha
  unfold Lane.Has dualLaneB at ha'
  dsimp only at ha ha'
  omega

theorem scryptCoreDual_eq (passA passB : List Byte) (mem : Memory) :
    scryptCoreDual useArm stack w (5 + extra) (2 ^ m) passA passB mem =
      some (scryptHash (2 ^ m) passA, scryptHash (2 ^ m) passB) := by
  obtain ⟨hA, hB, hAB⟩ := dualLanes_apart (2 ^ m)
  let startA := writeBytes mem dualLaneA.b (pbkdf2HmacSha256 passA passA 1 128)
  let start := writeBytes startA (dualLaneB (2 ^ m)).b (pbkdf2HmacSha256 passB passB 1 128)
  have hblockA : blockAt start dualLaneA.b = blockOfBytes (pbkdf2HmacSha256 passA passA 1 128) := by
    rw [← blockAt_writeBytes mem dualLaneA.b (length_derived passA)]
    apply blockAt_congr
    intro k hk
    exact writeBytes_outside _ (length_derived passB) fun h => hAB _ (.inl (by omega)) (.inl h)
  have hblockB : blockAt start (dualLaneB (2 ^ m)).b = blockOfBytes (pbkdf2HmacSha256 passB passB 1 128) :=
    blockAt_writeBytes _ _ (length_derived passB)
  obtain ⟨hmixedA, hmixedB⟩ := blockAt_scryptRomixDualScalar (w := w) hA hB hAB start
  rw [hblockA] at hmixedA
  rw [hblockB] at hmixedB
  rw [scryptCoreDual, pbkdf2Once_eq useArm stack extra passA passA (by decide),
    pbkdf2Once_eq useArm stack extra passB passB (by decide)]
  show (do
    let hashA ← pbkdf2Once useArm stack (5 + extra) passA (readBytes (scryptRomixDualScalar w (2 ^ m) dualLaneA
      (dualLaneB (2 ^ m)) start) dualLaneA.b 32) 32
    let hashB ← pbkdf2Once useArm stack (5 + extra) passB (readBytes (scryptRomixDualScalar w (2 ^ m) dualLaneA
      (dualLaneB (2 ^ m)) start) (dualLaneB (2 ^ m)).b 32) 32
    return (hashA, hashB)) = _
  rw [readBytes_eq, readBytes_eq, hmixedA, hmixedB, pbkdf2Once_eq useArm stack extra passA _ (by decide),
    pbkdf2Once_eq useArm stack extra passB _ (by decide)]
  rfl

theorem soaLanes_disjoint (n : Nat) {l l' : Fin 4} (hne : l ≠ l') : (soaLane n l).Disjoint (soaLane n l') n := by
  intro a ha ha'
  have htable : ∀ i j : Fin 4, i < j → i.val * (n * 32) + n * 32 ≤ j.val * (n * 32) := by
    intro i j hlt
    rw [← Nat.succ_mul]
    exact Nat.mul_le_mul_right _ hlt
  unfold Lane.Has soaLane at ha ha'
  dsimp only at ha ha'
  rcases lt_or_gt_of_ne hne with hlt | hlt
  · have hgap := htable l l' hlt
    omega
  · have hgap := htable l' l hlt
    omega

/-- The blocks of several lanes, written one after the other. -/
theorem blockAt_writeAll {b : Fin 4 → Nat} {derived : Fin 4 → List Byte} (hlen : ∀ l, (derived l).length = 128)
    (hdisjoint : ∀ l l' a, l ≠ l' → b l ≤ a ∧ a < b l + 32 → ¬ (b l' ≤ a ∧ a < b l' + 32)) {l : Fin 4}
    {ls : List (Fin 4)} (hl : l ∈ ls) (mem : Memory) :
    blockAt (ls.foldl (fun mem l => writeBytes mem (b l) (derived l)) mem) (b l) = blockOfBytes (derived l) := by
  induction ls using List.reverseRecOn with
  | nil => exact absurd hl List.not_mem_nil
  | append_singleton ls l' ih =>
    rw [List.foldl_append, List.foldl_cons, List.foldl_nil]
    by_cases hsame : l = l'
    · subst hsame
      exact blockAt_writeBytes _ _ (hlen l)
    · have hmem : l ∈ ls := by
        rcases List.mem_append.mp hl with h | h
        · exact h
        · exact absurd (List.mem_singleton.mp h) hsame
      rw [← ih hmem]
      apply blockAt_congr
      intro k hk
      exact writeBytes_outside _ (hlen l') (hdisjoint l l' _ hsame (by omega))

theorem scryptCoreSoa4_eq (pass : Fin 4 → List Byte) (mem : Memory) :
    scryptCoreSoa4 useArm stack (5 + extra) (2 ^ m) pass mem =
      some ((List.finRange 4).map fun l => scryptHash (2 ^ m) (pass l)) := by
  let derived : Fin 4 → List Byte := fun l => pbkdf2HmacSha256 (pass l) (pass l) 1 128
  let start := (List.finRange 4).foldl (fun mem l => writeBytes mem (soaLane (2 ^ m) l).b (derived l)) mem
  have hdisjoint : ∀ l l', l ≠ l' → (soaLane (2 ^ m) l).Disjoint (soaLane (2 ^ m) l') (2 ^ m) :=
    fun l l' hne => soaLanes_disjoint (2 ^ m) hne
  have hmixed : ∀ l, blockAt (scryptRomixSoa4 (2 ^ m) (soaLane (2 ^ m)) start) (soaLane (2 ^ m) l).b =
      romix (2 ^ m) (blockOfBytes (derived l)) := by
    intro l
    have hblock := blockAt_writeAll (fun l => length_derived (pass l))
      (fun l l' a hne ha ha' => hdisjoint l l' hne a (.inl ha) (.inl ha')) (List.mem_finRange l) mem
    rw [blockAt_scryptRomixSoa4 hdisjoint, ← hblock]
  have hstart : (List.finRange 4).foldlM (fun mem l => (pbkdf2Once useArm stack (5 + extra) (pass l) (pass l)
      128).map (writeBytes mem (soaLane (2 ^ m) l).b)) mem = some start := by
    simp only [pbkdf2Once_eq useArm stack extra _ _ (Nat.le_refl 128), Option.map_some]
    exact List.foldlM_pure
  rw [scryptCoreSoa4, hstart]
  show (List.finRange 4).mapM (fun l => pbkdf2Once useArm stack (5 + extra) (pass l)
    (readBytes (scryptRomixSoa4 (2 ^ m) (soaLane (2 ^ m)) start) (soaLane (2 ^ m) l).b 32) 32) = _
  simp only [readBytes_eq, hmixed, pbkdf2Once_eq useArm stack extra _ _ (show 32 ≤ 128 by decide)]
  exact List.mapM_pure

end hash

end Scrypt

/-- The cores agree: for every power of two, every header and whatever the scratchpad and the registers
hold, the core for four headers and the one for two give for each header what the core for one gives.  The
fused loop over a block is the mixing of its plain definition, wherever block and states stand apart, and
the two transpositions undo each other. -/
theorem scrypt_kernels_agree (useArm : Bool) (stack : Sha256Ctx) (w : Nat → Word) (extra m : Nat) :
    ∃ hash : List Byte → List Byte,
      (∀ header mem, Scrypt.scryptCore useArm stack w (5 + extra) (2 ^ m) 1 header header 32 mem =
        some (hash header)) ∧
      (∀ pass mem, Scrypt.scryptCoreSoa4 useArm stack (5 + extra) (2 ^ m) pass mem =
        some ((List.finRange 4).map fun l => hash (pass l))) ∧
      (∀ passA passB mem, Scrypt.scryptCoreDual useArm stack w (5 + extra) (2 ^ m) passA passB mem =
        some (hash passA, hash passB)) ∧
      (∀ (lane : Scrypt.Lane) mem, lane.Apart (2 ^ m) →
        blockAt (Scrypt.scryptRomixR1Fast w (2 ^ m) lane mem) lane.b = romix (2 ^ m) (blockAt mem lane.b)) ∧
      (∀ lanes, Scrypt.soaToLanes (Scrypt.lanesToSoa lanes) = lanes) ∧
      ∀ v, Scrypt.lanesToSoa (Scrypt.soaToLanes v) = v :=
  ⟨Scrypt.scryptHash (2 ^ m), Scrypt.scryptCore_eq useArm stack w extra m,
    Scrypt.scryptCoreSoa4_eq useArm stack extra m, Scrypt.scryptCoreDual_eq useArm stack w extra m,
    fun _ mem hapart => Scrypt.blockAt_scryptRomixR1Fast hapart mem, Scrypt.soaToLanes_lanesToSoa,
    Scrypt.lanesToSoa_soaToLanes⟩

end PrimoMiner
